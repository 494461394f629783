import LocalRag.Library.Polling

/-!
# Which uploads stay in sight

`Watch` keeps, beside the hook, what it owes: the jobs that were tracked and have not been
settled or untracked, and the jobs that left by a terminal status. `Good` compares the two.

The set in `trackedRef` is replaced as a whole by five callbacks, and each of them starts
from the set that is there. The copying effect does not: it puts back the set of the last
render, and a job that was tracked in between is gone. So everything holds as long as the
effect copies the jobs that are in `trackedRef` already (`jobs_stay_tracked`), and
`upload_lost` is a run where it does not.

Three invariants carry the proof.
- `Owed`: the jobs in `trackedRef` are the jobs that are due.
- `Flying`: the live poll is the one in `controller`, until its `finally` has run.
- `Busy`: on a visible page with jobs there is a timer, a live poll, or a poll queued behind
  the `finally` that would turn it away. The order of the microtasks is what it rests on:
  `track` clears the timer, and the poll it queues comes behind that `finally`.
-/

namespace LocalRag.Library

open LocalRag.Core

/-! ## What is owed -/

structure Watch where
  /-- Tracked, and not settled by a terminal status or a 404, nor untracked with its document. -/
  due : List String
  /-- The jobs that left by a terminal status. -/
  left : List String

/-- A result that the poll gives for a job. -/
def settleDue (answer : String → JobAnswer) (w : Watch) (item : TrackedJob) : Watch :=
  if item.jobId ∈ w.due then
    match answer item.jobId with
    | .job status =>
      if status ∈ TERMINAL then ⟨w.due.filter (· ≠ item.jobId), w.left ++ [item.jobId]⟩ else w
    | .missing => ⟨w.due.filter (· ≠ item.jobId), w.left⟩
    | .failed _ => w
  else w

/-- The results of a poll. -/
def settleWatch (s : Hook) (w : Watch) (flight : Nat) (answer : String → JobAnswer) : Watch :=
  match s.flights.find? (·.id = flight) with
  | none => w
  | some f => if f.aborted then w else f.active.foldl (settleDue answer) w

def watchStep (s : Hook) (w : Watch) : HookAct → Watch
  | .track item => if item.status ∈ TERMINAL then w else ⟨w.due ++ [item.jobId], w.left⟩
  | .untrackDocument documentId =>
    ⟨w.due.filter fun jobId =>
      ¬ s.trackedRef.any fun item => item.jobId = jobId ∧ item.documentId = documentId, w.left⟩
  | .settle flight answer => settleWatch s w flight answer
  | _ => w

/-- The hook and what it owes. -/
def watchedStep (x : Hook × Watch) (a : HookAct) : Hook × Watch :=
  (hookStep x.1 a, watchStep x.1 x.2 a)

def watchedMount (item : Option Json) (visible : Bool) : Hook × Watch :=
  (mount item visible, ⟨(restoreTracked item).map (·.jobId), []⟩)

/-- Every due job is tracked, `onTerminal` was called once for each that left by a terminal status,
one poll at most is in flight and not aborted, and a visible page with jobs will poll them. -/
structure Good (x : Hook × Watch) : Prop where
  tracked : ∀ jobId ∈ x.2.due, ∃ job ∈ x.1.trackedRef, job.jobId = jobId
  called : x.1.terminalCalls = x.2.left
  single : (x.1.flights.filter fun f => ¬ f.aborted).length ≤ 1
  polled : x.1.visible = true → x.2.due ≠ [] →
    x.1.timer.isSome ∨ (∃ f ∈ x.1.flights, f.aborted = false) ∨ .poll ∈ x.1.microtasks

/-- The effect copies the jobs that are there. -/
def CopiesSame (s : Hook) : Prop :=
  ∀ tracked, s.copying = some tracked →
    ∀ jobId, jobId ∈ tracked.map (·.jobId) ↔ jobId ∈ s.trackedRef.map (·.jobId)

def HookStepOk (x : Hook × Watch) : HookAct → Prop
  | .copyTracked => CopiesSame x.1
  | .render => x.1.queued ≠ none → CopiesSame x.1
  | _ => True

/-! ## Jobs -/

/-- Each job once, none of them terminal. -/
structure Clean (jobs : List TrackedJob) : Prop where
  keyed : Keyed (·.jobId) jobs
  pending : ∀ job ∈ jobs, job.status ∉ TERMINAL

theorem Clean.nil : Clean [] := ⟨Keyed.nil _, by simp⟩

variable {jobs : List TrackedJob}

theorem Clean.filter (h : Clean jobs) (p : TrackedJob → Bool) : Clean (jobs.filter p) :=
  ⟨h.keyed.filter p, fun job hjob => h.pending job (List.mem_of_mem_filter hjob)⟩

theorem jobOf_isSome {jobId : String} :
    (jobOf jobs jobId).isSome = true ↔ jobId ∈ jobs.map (·.jobId) := by
  unfold jobOf
  rw [Option.isSome_iff_ne_none, Ne, rowAt_eq_none, List.mem_map]
  simp only [ne_eq, not_forall, Classical.not_not, exists_prop]

/-- A job that replaces another has its id. -/
theorem replaceJob_ids (jobs : List TrackedJob) (item : TrackedJob) :
    (updateWhere (fun job => job.jobId = item.jobId) (fun _ => item) jobs).map (·.jobId) =
      jobs.map (·.jobId) := by
  unfold updateWhere
  rw [List.map_map]
  refine List.map_congr_left fun job _ => ?_
  by_cases hjob : job.jobId = item.jobId
  · simp [hjob]
  · simp [hjob]

theorem putJob_ids (jobs : List TrackedJob) (item : TrackedJob) (jobId : String) :
    jobId ∈ (putJob jobs item).map (·.jobId) ↔
      jobId ∈ jobs.map (·.jobId) ∨ jobId = item.jobId := by
  unfold putJob
  split
  next hold =>
    rw [jobOf_isSome] at hold
    rw [replaceJob_ids]
    constructor
    · exact Or.inl
    · intro h
      rcases h with h | rfl
      · exact h
      · exact hold
  next => simp

theorem clean_putJob {jobs : List TrackedJob} (h : Clean jobs) {item : TrackedJob}
    (hitem : item.status ∉ TERMINAL) : Clean (putJob jobs item) := by
  unfold putJob
  split
  next =>
    constructor
    · unfold Keyed
      rw [replaceJob_ids]
      exact h.keyed
    · intro job hjob
      obtain ⟨old, hold, rfl⟩ := mem_updateWhere.mp hjob
      split
      · exact hitem
      · exact h.pending old hold
  next hnew =>
    constructor
    · refine h.keyed.append fun job hjob heq => ?_
      rw [jobOf_isSome] at hnew
      exact hnew (List.mem_map.mpr ⟨job, hjob, heq⟩)
    · intro job hjob
      rcases List.mem_append.mp hjob with hjob | hjob
      · exact h.pending job hjob
      · rw [List.mem_singleton.mp hjob]
        exact hitem

theorem dropJob_ids (jobs : List TrackedJob) (dropped jobId : String) :
    jobId ∈ (dropJob jobs dropped).map (·.jobId) ↔
      jobId ∈ jobs.map (·.jobId) ∧ jobId ≠ dropped := by
  unfold dropJob
  simp only [List.mem_map, mem_deleteWhere, decide_eq_false_iff_not]
  constructor
  · intro h
    obtain ⟨job, ⟨hjob, hne⟩, rfl⟩ := h
    exact ⟨⟨job, hjob, rfl⟩, hne⟩
  · intro h
    obtain ⟨⟨job, hjob, rfl⟩, hne⟩ := h
    exact ⟨job, ⟨hjob, hne⟩, rfl⟩

theorem clean_dropJob (h : Clean jobs) (dropped : String) : Clean (dropJob jobs dropped) :=
  h.filter _

/-! ## The jobs that are due -/

/-- The jobs in `jobs` are those due, and `onTerminal` was called for those that left. -/
structure Owed (jobs : List TrackedJob) (calls : List String) (w : Watch) : Prop where
  clean : Clean jobs
  due : ∀ jobId, jobId ∈ w.due ↔ jobId ∈ jobs.map (·.jobId)
  called : calls = w.left

variable {w : Watch}

theorem owed_drop {calls left : List String} (h : Owed jobs calls w) (jobId : String)
    (hcalled : calls = left) :
    Owed (dropJob jobs jobId) calls ⟨w.due.filter (· ≠ jobId), left⟩ where
  clean := clean_dropJob h.clean jobId
  due other := by
    rw [dropJob_ids, List.mem_filter, h.due, decide_eq_true_eq]
  called := hcalled

/-- A result does to the jobs what it does to what is owed. -/
theorem settleItem_owed {answer : String → JobAnswer} {acc : Settling}
    (h : Owed acc.next acc.terminalCalls w) {item : TrackedJob} (hitem : item.status ∉ TERMINAL) :
    Owed (settleItem answer acc item).next (settleItem answer acc item).terminalCalls
      (settleDue answer w item) := by
  have hdue := h.due item.jobId
  unfold settleItem settleDue
  cases hjob : jobOf acc.next item.jobId with
  | none =>
    have habsent : item.jobId ∉ acc.next.map (·.jobId) := by
      rw [← jobOf_isSome, hjob]
      decide
    rw [if_neg (fun hin => habsent (hdue.mp hin))]
    exact h
  | some job =>
    have hpresent : item.jobId ∈ acc.next.map (·.jobId) := by
      rw [← jobOf_isSome, hjob]
      rfl
    -- a job that stays is put in its own place
    have hput : ∀ {job : TrackedJob}, job.jobId = item.jobId → job.status ∉ TERMINAL →
        Owed (putJob acc.next job) acc.terminalCalls w := by
      intro job hid hstatus
      refine ⟨clean_putJob h.clean hstatus, fun jobId => ?_, h.called⟩
      rw [putJob_ids, h.due, hid]
      constructor
      · exact Or.inl
      · intro hor
        rcases hor with hor | rfl
        · exact hor
        · exact hpresent
    rw [if_pos (hdue.mpr hpresent)]
    cases answer item.jobId with
    | job status =>
      by_cases hterminal : status ∈ TERMINAL
      · simp only [if_pos hterminal]
        have hdrop := owed_drop h item.jobId h.called
        exact ⟨hdrop.clean, hdrop.due, by rw [h.called]⟩
      · simp only [if_neg hterminal]
        exact hput rfl hterminal
    | missing => exact owed_drop h item.jobId h.called
    | failed message => exact hput rfl hitem

theorem settle_owed {answer : String → JobAnswer} {active : List TrackedJob}
    (hactive : ∀ item ∈ active, item.status ∉ TERMINAL) {acc : Settling} {w : Watch}
    (h : Owed acc.next acc.terminalCalls w) :
    Owed (active.foldl (settleItem answer) acc).next
      (active.foldl (settleItem answer) acc).terminalCalls (active.foldl (settleDue answer) w) := by
  induction active generalizing acc w with
  | nil => exact h
  | cons item active ih =>
    exact ih (fun other hother => hactive other (List.mem_cons_of_mem _ hother))
      (settleItem_owed h (hactive item List.mem_cons_self))

/-! ## Polls in flight -/

/-- The live poll is the one in `controller`, until its `finally` has run. -/
structure Flying (flights : List Flight) (started : Nat) (controller : Option Nat)
    (inFlight : Bool) (microtasks : List Microtask) : Prop where
  keyed : Keyed (·.id) flights
  numbered : ∀ f ∈ flights, f.id < started
  active : ∀ f ∈ flights, ∀ item ∈ f.active, item.status ∉ TERMINAL
  live : ∀ f ∈ flights, f.aborted = false → controller = some f.id
  flag : inFlight = controller.isSome
  ended : ∀ id, .finished id ∈ microtasks → id < started ∧ ∀ f ∈ flights, f.id ≠ id
  ends : ∀ id, controller = some id →
    (∃ f ∈ flights, f.id = id ∧ f.aborted = false) ∨ .finished id ∈ microtasks

variable {flights : List Flight} {started : Nat} {controller : Option Nat} {inFlight : Bool}
  {microtasks : List Microtask}

theorem Flying.single (h : Flying flights started controller inFlight microtasks) :
    (flights.filter fun f => ¬ f.aborted).length ≤ 1 := by
  have hkeyed := h.keyed.filter fun f => ¬ f.aborted
  have hlive : ∀ f ∈ flights.filter (fun f => ¬ f.aborted), controller = some f.id := by
    intro f hf
    obtain ⟨hf, haborted⟩ := List.mem_filter.mp hf
    exact h.live f hf (by simpa using haborted)
  cases hfilter : flights.filter fun f => ¬ f.aborted with
  | nil => exact Nat.zero_le _
  | cons f rest =>
    cases rest with
    | nil => exact Nat.le_refl _
    | cons g rest =>
      rw [hfilter] at hkeyed hlive
      have hfg : f.id = g.id :=
        Option.some.inj ((hlive f (by simp)).symm.trans (hlive g (by simp)))
      have hnodup : ¬ f.id ∈ (g :: rest).map (·.id) := (List.nodup_cons.mp hkeyed).1
      exact absurd (by simp [hfg]) hnodup

/-- A poll is started, none being in flight. -/
theorem flying_poll (h : Flying flights started none false microtasks) {active : List TrackedJob}
    (hactive : ∀ item ∈ active, item.status ∉ TERMINAL) :
    Flying (flights ++ [⟨started, active, false⟩]) (started + 1) (some started) true microtasks where
  keyed := h.keyed.append fun f hf => Nat.ne_of_lt (h.numbered f hf)
  numbered f hf := by
    rcases List.mem_append.mp hf with hf | hf
    · exact Nat.lt_succ_of_lt (h.numbered f hf)
    · rw [List.mem_singleton.mp hf]
      exact Nat.lt_succ_self _
  active f hf := by
    rcases List.mem_append.mp hf with hf | hf
    · exact h.active f hf
    · rw [List.mem_singleton.mp hf]
      exact hactive
  live f hf haborted := by
    rcases List.mem_append.mp hf with hf | hf
    · exact absurd (h.live f hf haborted) (by simp)
    · rw [List.mem_singleton.mp hf]
  flag := rfl
  ended id hid := by
    obtain ⟨hlt, hne⟩ := h.ended id hid
    refine ⟨Nat.lt_succ_of_lt hlt, fun f hf => ?_⟩
    rcases List.mem_append.mp hf with hf | hf
    · exact hne f hf
    · rw [List.mem_singleton.mp hf]
      show started ≠ id
      omega
  ends id hid := Or.inl ⟨_, List.mem_append_right _ List.mem_cons_self, Option.some.inj hid, rfl⟩

/-- A poll has settled: its `finally` comes. -/
theorem flying_settle (h : Flying flights started controller inFlight microtasks) {f : Flight}
    (hf : f ∈ flights) :
    Flying (flights.filter (·.id ≠ f.id)) started controller inFlight
      (microtasks ++ [.finished f.id]) where
  keyed := h.keyed.filter _
  numbered g hg := h.numbered g (List.mem_of_mem_filter hg)
  active g hg := h.active g (List.mem_of_mem_filter hg)
  live g hg := h.live g (List.mem_of_mem_filter hg)
  flag := h.flag
  ended id hid := by
    rcases List.mem_append.mp hid with hid | hid
    · obtain ⟨hlt, hne⟩ := h.ended id hid
      exact ⟨hlt, fun g hg => hne g (List.mem_of_mem_filter hg)⟩
    · obtain rfl := Microtask.finished.inj (List.mem_singleton.mp hid)
      refine ⟨h.numbered f hf, fun g hg => ?_⟩
      simpa using (List.mem_filter.mp hg).2
  ends id hid := by
    rcases h.ends id hid with ⟨g, hg, rfl, haborted⟩ | hid
    · by_cases hfg : g.id = f.id
      · rw [hfg]
        exact Or.inr (List.mem_append_right _ List.mem_cons_self)
      · exact Or.inl ⟨g, List.mem_filter.mpr ⟨hg, by simpa using hfg⟩, rfl, haborted⟩
    · exact Or.inr (List.mem_append_left _ hid)

variable {id : Nat}

/-- `finally` of the poll in `controller`. -/
theorem flying_finished
    (h : Flying flights started (some id) inFlight (.finished id :: microtasks)) :
    Flying flights started none false microtasks where
  keyed := h.keyed
  numbered := h.numbered
  active := h.active
  live f hf haborted := by
    have hid := Option.some.inj (h.live f hf haborted)
    exact absurd hid.symm ((h.ended id List.mem_cons_self).2 f hf)
  flag := rfl
  ended other hother := h.ended other (List.mem_cons_of_mem _ hother)
  ends other hother := absurd hother (by simp)

variable {m : Microtask}

/-- A microtask that is no `finally` of the poll in `controller`. -/
theorem flying_pop (h : Flying flights started controller inFlight (m :: microtasks))
    (hm : ∀ id, controller = some id → m ≠ .finished id) :
    Flying flights started controller inFlight microtasks where
  keyed := h.keyed
  numbered := h.numbered
  active := h.active
  live := h.live
  flag := h.flag
  ended id hid := h.ended id (List.mem_cons_of_mem _ hid)
  ends id hid := by
    rcases h.ends id hid with hlive | hend
    · exact Or.inl hlive
    · rcases List.mem_cons.mp hend with heq | hend
      · exact absurd heq.symm (hm id hid)
      · exact Or.inr hend

theorem flying_queue (h : Flying flights started controller inFlight microtasks) :
    Flying flights started controller inFlight (microtasks ++ [.poll]) where
  keyed := h.keyed
  numbered := h.numbered
  active := h.active
  live := h.live
  flag := h.flag
  ended id hid := h.ended id (by simpa using hid)
  ends id hid := (h.ends id hid).imp_right (List.mem_append_left _)

theorem flying_abort (h : Flying flights started controller inFlight microtasks) :
    Flying (flights.map fun f => if controller = some f.id then { f with aborted := true } else f)
      started none false microtasks := by
  have hid : ∀ f : Flight,
      (if controller = some f.id then { f with aborted := true } else f).id = f.id := by
    intro f
    split
    · rfl
    · rfl
  refine ⟨?_, ?_, ?_, ?_, rfl, ?_, fun id hid => absurd hid (by simp)⟩
  · unfold Keyed
    rw [List.map_map]
    exact (List.map_congr_left fun f _ => hid f) ▸ h.keyed
  · intro f hf
    obtain ⟨g, hg, rfl⟩ := List.mem_map.mp hf
    rw [hid g]
    exact h.numbered g hg
  · intro f hf
    obtain ⟨g, hg, rfl⟩ := List.mem_map.mp hf
    split
    · exact h.active g hg
    · exact h.active g hg
  · intro f hf haborted
    obtain ⟨g, hg, rfl⟩ := List.mem_map.mp hf
    by_cases hcontroller : controller = some g.id
    · rw [if_pos hcontroller] at haborted
      exact absurd haborted (by simp)
    · rw [if_neg hcontroller] at haborted
      exact absurd (h.live g hg haborted) hcontroller
  · intro id hend
    obtain ⟨hlt, hne⟩ := h.ended id hend
    refine ⟨hlt, fun f hf => ?_⟩
    obtain ⟨g, hg, rfl⟩ := List.mem_map.mp hf
    rw [hid g]
    exact hne g hg

/-! ## Something is always coming -/

/-- What comes behind the `finally` of a poll. -/
def behindFinished (id : Nat) : List Microtask → List Microtask
  | [] => []
  | m :: rest => if m = .finished id then rest else behindFinished id rest

/-- The microtasks that run when `controller` is free. -/
def behind : Option Nat → List Microtask → List Microtask
  | none, microtasks => microtasks
  | some id, microtasks => behindFinished id microtasks

/-- On a visible page with jobs. -/
def Busy (s : Hook) : Prop :=
  s.visible = true → s.trackedRef ≠ [] →
    s.timer.isSome = true ∨ (∃ f ∈ s.flights, f.aborted = false) ∨
      .poll ∈ behind s.controller s.microtasks

theorem behindFinished_subset (h : m ∈ behindFinished id microtasks) : m ∈ microtasks := by
  induction microtasks with
  | nil => exact h
  | cons first rest ih =>
    unfold behindFinished at h
    split at h
    · exact List.mem_cons_of_mem _ h
    · exact List.mem_cons_of_mem _ (ih h)

theorem behind_subset (h : m ∈ behind controller microtasks) : m ∈ microtasks := by
  cases controller with
  | none => exact h
  | some id => exact behindFinished_subset h

theorem behind_append (h : m ∈ behind controller microtasks) (more : List Microtask) :
    m ∈ behind controller (microtasks ++ more) := by
  cases controller with
  | none => exact List.mem_append_left _ h
  | some id =>
    change m ∈ behindFinished id microtasks at h
    show m ∈ behindFinished id (microtasks ++ more)
    induction microtasks with
    | nil => exact absurd h (by simp [behindFinished])
    | cons first rest ih =>
      rw [List.cons_append]
      unfold behindFinished at h ⊢
      split
      next heq =>
        rw [if_pos heq] at h
        exact List.mem_append_left _ h
      next hne =>
        rw [if_neg hne] at h
        exact ih h

/-- A poll queued now comes behind the `finally` that is queued. -/
theorem behindFinished_queue (h : .finished id ∈ microtasks) :
    .poll ∈ behindFinished id (microtasks ++ [.poll]) := by
  induction microtasks with
  | nil => exact absurd h (by simp)
  | cons first rest ih =>
    rw [List.cons_append]
    unfold behindFinished
    split
    next => exact List.mem_append_right _ List.mem_cons_self
    next hne =>
      rcases List.mem_cons.mp h with heq | hrest
      · exact absurd heq.symm hne
      · exact ih hrest

/-- After `track` there is a live poll, or the queued one will not be turned away. -/
theorem behind_queue (h : Flying flights started controller inFlight microtasks) :
    (∃ f ∈ flights, f.aborted = false) ∨ .poll ∈ behind controller (microtasks ++ [.poll]) := by
  cases controller with
  | none => exact Or.inr (List.mem_append_right _ List.mem_cons_self)
  | some id =>
    rcases h.ends id rfl with ⟨f, hf, -, haborted⟩ | hend
    · exact Or.inl ⟨f, hf, haborted⟩
    · exact Or.inr (behindFinished_queue hend)

/-- A microtask that frees nothing is in front of nothing that counts. -/
theorem behind_pop (hpoll : m = .poll → controller ≠ none)
    (hend : ∀ id, controller = some id → m ≠ .finished id)
    (h : .poll ∈ behind controller (m :: microtasks)) : .poll ∈ behind controller microtasks := by
  cases controller with
  | none =>
    rcases List.mem_cons.mp h with heq | h
    · exact absurd rfl (hpoll heq.symm)
    · exact h
  | some id =>
    change .poll ∈ behindFinished id (m :: microtasks) at h
    unfold behindFinished at h
    rwa [if_neg (hend id rfl)] at h

/-! ## The invariant -/

structure SoundHook (s : Hook) (w : Watch) : Prop where
  owed : Owed s.trackedRef s.terminalCalls w
  queued : ∀ jobs, s.queued = some jobs → Clean jobs
  rendering : ∀ jobs, s.rendering = some jobs → Clean jobs
  copying : ∀ jobs, s.copying = some jobs → Clean jobs
  flying : Flying s.flights s.started s.controller s.inFlight s.microtasks
  busy : Busy s

variable {s : Hook}

theorem good_of_sound (h : SoundHook s w) : Good (s, w) where
  tracked jobId hdue := by
    obtain ⟨job, hjob, rfl⟩ := List.mem_map.mp ((h.owed.due jobId).mp hdue)
    exact ⟨job, hjob, rfl⟩
  called := h.owed.called
  single := h.flying.single
  polled hvisible hdue := by
    have hjobs : s.trackedRef ≠ [] := by
      intro hnil
      refine hdue (List.eq_nil_iff_forall_not_mem.mpr fun jobId hmem => ?_)
      have hmem := (h.owed.due jobId).mp hmem
      rw [hnil] at hmem
      exact absurd hmem (by simp)
    exact (h.busy hvisible hjobs).imp_right (Or.imp_right behind_subset)

/-- A poll that is turned away by `inFlight` leaves what is coming. -/
theorem sound_poll (h : SoundHook { s with visible := false } w)
    (hbusy : s.inFlight = true → Busy s) : SoundHook (poll s) w := by
  have howed : Owed s.trackedRef s.terminalCalls w := h.owed
  have hflying : Flying s.flights s.started s.controller s.inFlight s.microtasks := h.flying
  have hactive : s.trackedRef.filter (fun item => item.status ∉ TERMINAL) = s.trackedRef :=
    List.filter_eq_self.mpr fun item hitem => by simpa using howed.clean.pending item hitem
  unfold poll
  split
  next haway =>
    refine ⟨howed, h.queued, h.rendering, h.copying, hflying, ?_⟩
    rcases haway with hin | hhidden
    · exact hbusy hin
    · exact fun hvisible => absurd hvisible hhidden
  next hgo =>
    simp only [hactive]
    split
    next hnil =>
      exact ⟨howed, h.queued, h.rendering, h.copying, hflying,
        fun _ hjobs => absurd hnil hjobs⟩
    next =>
      have hfree : s.inFlight = false := by
        rw [← Bool.not_eq_true]
        exact fun hin => hgo (Or.inl hin)
      have hcontroller : s.controller = none := by
        rw [← Option.not_isSome_iff_eq_none, ← hflying.flag, hfree]
        decide
      rw [hfree, hcontroller] at hflying
      refine ⟨howed, h.queued, h.rendering, h.copying, flying_poll hflying ?_, fun _ _ => ?_⟩
      · exact howed.clean.pending
      · exact Or.inr (Or.inl ⟨_, List.mem_append_right _ List.mem_cons_self, rfl⟩)

/-- When no microtask is left, a poll that turns others away is alive. -/
theorem live_of_task (h : Flying flights started controller true []) :
    ∃ f ∈ flights, f.aborted = false := by
  cases controller with
  | none => exact absurd h.flag (by decide)
  | some id =>
    rcases h.ends id rfl with ⟨f, hf, -, haborted⟩ | hend
    · exact ⟨f, hf, haborted⟩
    · exact absurd hend (by simp)

/-- A click, a timer, or a page that is shown. -/
theorem sound_pollTask {s : Hook} {w : Watch} (h : SoundHook { s with visible := false } w)
    (hempty : s.microtasks = []) : SoundHook (poll s) w := by
  refine sound_poll h fun hin => ?_
  have hflying : Flying s.flights s.started s.controller s.inFlight s.microtasks := h.flying
  rw [hin, hempty] at hflying
  exact fun _ _ => Or.inr (Or.inl (live_of_task hflying))

/-- What a task changes before it polls. -/
theorem SoundHook.task (h : SoundHook s w) (timer : Option Nat) (pollError : Option String) :
    SoundHook { s with visible := false, timer := timer, pollError := pollError } w :=
  ⟨h.owed, h.queued, h.rendering, h.copying, h.flying, fun hvisible => absurd hvisible (by simp)⟩

theorem sound_track (h : SoundHook s w) (item : TrackedJob) :
    SoundHook (track s item) (watchStep s w (.track item)) := by
  show SoundHook (track s item) (if item.status ∈ TERMINAL then w else ⟨w.due ++ [item.jobId], w.left⟩)
  unfold track
  split
  next => exact h
  next hpending =>
    have hclean := @clean_putJob _ h.owed.clean { item with failures := 0 } hpending
    refine ⟨⟨hclean, fun jobId => ?_, h.owed.called⟩, ?_, h.rendering, h.copying,
      flying_queue h.flying, fun _ _ => ?_⟩
    · show jobId ∈ w.due ++ [item.jobId] ↔
        jobId ∈ (putJob s.trackedRef { item with failures := 0 }).map (·.jobId)
      rw [putJob_ids, List.mem_append, List.mem_singleton, h.owed.due]
    · intro jobs hjobs
      obtain rfl := Option.some.inj hjobs
      exact hclean
    · exact Or.inr (behind_queue h.flying)

theorem sound_untrack (h : SoundHook s w) (documentId : String) :
    SoundHook (untrackDocument s documentId) (watchStep s w (.untrackDocument documentId)) := by
  have hclean := h.owed.clean.filter fun item => item.documentId ≠ documentId
  have howed : Owed (s.trackedRef.filter fun item => item.documentId ≠ documentId) s.terminalCalls
      (watchStep s w (.untrackDocument documentId)) := by
    refine ⟨hclean, fun jobId => ?_, h.owed.called⟩
    show jobId ∈ w.due.filter _ ↔ _
    simp only [List.mem_filter, List.mem_map, h.owed.due, decide_eq_true_eq, List.any_eq_true,
      not_exists, not_and]
    constructor
    · intro hleft
      obtain ⟨⟨job, hjob, rfl⟩, hother⟩ := hleft
      exact ⟨job, ⟨hjob, hother job hjob rfl⟩, rfl⟩
    · intro hleft
      obtain ⟨job, ⟨hjob, hother⟩, rfl⟩ := hleft
      refine ⟨⟨job, hjob, rfl⟩, fun twin htwin hid => ?_⟩
      rw [h.owed.clean.keyed.eq htwin hjob hid]
      exact hother
  have hqueued : ∀ jobs, some (s.trackedRef.filter fun item => item.documentId ≠ documentId) =
      some jobs → Clean jobs := by
    intro jobs hjobs
    obtain rfl := Option.some.inj hjobs
    exact hclean
  unfold untrackDocument
  dsimp only
  split
  next hnil =>
    exact ⟨howed, hqueued, h.rendering, h.copying, h.flying, fun _ hjobs => absurd hnil hjobs⟩
  next hne =>
    refine ⟨howed, hqueued, h.rendering, h.copying, h.flying, fun hvisible _ => ?_⟩
    refine h.busy hvisible fun hnil => hne ?_
    rw [hnil]
    rfl

theorem sound_schedule (h : SoundHook { s with visible := false } w) (delay : Nat) :
    SoundHook (schedule s delay) w := by
  unfold schedule
  split
  next hquiet =>
    refine ⟨h.owed, h.queued, h.rendering, h.copying, h.flying, fun hvisible hjobs => ?_⟩
    rcases hquiet with hhidden | hnil
    · exact absurd hvisible hhidden
    · exact absurd hnil hjobs
  next => exact ⟨h.owed, h.queued, h.rendering, h.copying, h.flying, fun _ _ => Or.inl rfl⟩

theorem sound_handleResults (h : SoundHook { s with visible := false } w)
    {active : List TrackedJob} (hactive : ∀ item ∈ active, item.status ∉ TERMINAL)
    {answer : String → JobAnswer} :
    SoundHook (handleResults s active answer) (active.foldl (settleDue answer) w) := by
  have hstart : Owed s.trackedRef s.terminalCalls w := h.owed
  have howed := @settle_owed answer active hactive ⟨s.trackedRef, 0, none, s.terminalCalls⟩ w hstart
  refine sound_schedule ?_ _
  refine ⟨howed, fun jobs hjobs => ?_, h.rendering, h.copying, h.flying,
    fun hvisible => absurd hvisible (by simp)⟩
  obtain rfl := Option.some.inj hjobs
  exact howed.clean

theorem sound_settle (h : SoundHook s w) (flight : Nat) (answer : String → JobAnswer) :
    SoundHook (settle s flight answer) (settleWatch s w flight answer) := by
  unfold settle settleWatch
  cases hfind : s.flights.find? (fun f => decide (f.id = flight)) with
  | none => exact h
  | some f =>
    obtain ⟨hf, rfl⟩ := h.flying.keyed.find_eq_some.mp hfind
    have hflying := flying_settle h.flying hf
    by_cases haborted : f.aborted = true
    · simp only [haborted, if_true]
      refine ⟨h.owed, h.queued, h.rendering, h.copying, hflying, fun hvisible hjobs => ?_⟩
      rcases h.busy hvisible hjobs with htimer | ⟨g, hg, hlive⟩ | hpoll
      · exact Or.inl htimer
      · -- the live poll is another one
        have hgf : g.id ≠ f.id := by
          intro heq
          rw [h.flying.keyed.eq hg hf heq, haborted] at hlive
          exact absurd hlive (by decide)
        exact Or.inr (Or.inl ⟨g, List.mem_filter.mpr ⟨hg, by simpa using hgf⟩, hlive⟩)
      · exact Or.inr (Or.inr (behind_append hpoll _))
    · simp only [haborted]
      refine sound_handleResults ?_ (h.flying.active f hf)
      exact ⟨h.owed, h.queued, h.rendering, h.copying, hflying,
        fun hvisible => absurd hvisible (by simp)⟩

theorem sound_microtask (h : SoundHook s w) : SoundHook (runMicrotask s) w := by
  unfold runMicrotask
  cases hmicro : s.microtasks with
  | nil => exact h
  | cons m rest =>
    have hflying := h.flying
    rw [hmicro] at hflying
    have hbusy := h.busy
    unfold Busy at hbusy
    rw [hmicro] at hbusy
    cases m with
    | poll =>
      have hpop := flying_pop hflying (by simp)
      show SoundHook (poll { s with microtasks := rest }) w
      refine sound_poll ⟨h.owed, h.queued, h.rendering, h.copying, hpop,
        fun hvisible => absurd hvisible (by simp)⟩ fun hin => ?_
      intro hvisible hjobs
      refine (hbusy hvisible hjobs).imp_right (Or.imp_right (behind_pop (fun _ => ?_) (by simp)))
      intro hnone
      have hflag := hpop.flag
      rw [hnone] at hflag
      exact absurd (hin.symm.trans hflag) (by decide)
    | finished id =>
      show SoundHook (finished { s with microtasks := rest } id) w
      unfold finished
      split
      next hcontroller =>
        change s.controller = some id at hcontroller
        rw [hcontroller] at hflying hbusy
        refine ⟨h.owed, h.queued, h.rendering, h.copying, flying_finished hflying,
          fun hvisible hjobs => ?_⟩
        refine (hbusy hvisible hjobs).imp_right (Or.imp_right fun hpoll => ?_)
        change .poll ∈ behindFinished id (.finished id :: rest) at hpoll
        unfold behindFinished at hpoll
        rwa [if_pos rfl] at hpoll
      next hcontroller =>
        have hother : ∀ other, s.controller = some other → Microtask.finished id ≠ .finished other := by
          intro other hsome heq
          obtain rfl := Microtask.finished.inj heq
          exact hcontroller hsome
        refine ⟨h.owed, h.queued, h.rendering, h.copying, flying_pop hflying hother,
          fun hvisible hjobs => ?_⟩
        exact (hbusy hvisible hjobs).imp_right (Or.imp_right (behind_pop (by simp) hother))

theorem sound_copyTracked (h : SoundHook s w) (hsame : CopiesSame s) :
    SoundHook (copyTracked s) w := by
  unfold copyTracked
  cases hcopying : s.copying with
  | none => exact h
  | some tracked =>
    have hids := hsame tracked hcopying
    refine ⟨⟨h.copying tracked hcopying, fun jobId => ?_, h.owed.called⟩, h.queued, h.rendering,
      fun jobs hjobs => absurd hjobs (by simp), h.flying, fun hvisible hjobs => ?_⟩
    · rw [hids, h.owed.due]
    · refine h.busy hvisible fun hnil => ?_
      obtain ⟨job, hjob⟩ := List.exists_mem_of_ne_nil _ hjobs
      have hmem := (hids job.jobId).mp (List.mem_map_of_mem hjob)
      rw [hnil] at hmem
      exact absurd hmem (by simp)

theorem watched_sound (x : Hook × Watch) (a : HookAct) (hok : HookStepOk x a)
    (h : SoundHook x.1 x.2) : SoundHook (watchedStep x a).1 (watchedStep x a).2 := by
  obtain ⟨s, w⟩ := x
  cases a with
  | track item => exact sound_track h item
  | untrackDocument documentId => exact sound_untrack h documentId
  | settle flight answer => exact sound_settle h flight answer
  | microtask => exact sound_microtask h
  | retryNow =>
    show SoundHook (asTask retryNow s) w
    unfold asTask
    split
    next hempty => exact @sound_pollTask (clearTimer { s with pollError := none }) w (h.task none none) hempty
    next => exact h
  | visibilityChange visible =>
    show SoundHook (asTask (visibilityChange · visible) s) w
    unfold asTask
    split
    next hempty =>
      cases visible with
      | true =>
        exact @sound_pollTask (clearTimer { s with pollError := none, visible := true }) w
          (h.task none none) hempty
      | false =>
        exact ⟨h.owed, h.queued, h.rendering, h.copying, flying_abort h.flying,
          fun hvisible => Bool.noConfusion hvisible⟩
    next => exact h
  | fireTimer =>
    show SoundHook (asTask fireTimer s) w
    unfold asTask
    split
    next hempty =>
      unfold fireTimer
      split
      · exact h
      · exact @sound_pollTask { s with timer := none } w (h.task none s.pollError) hempty
    next => exact h
  | render =>
    show SoundHook (render s) w
    unfold render
    cases hqueued : s.queued with
    | none => exact h
    | some tracked =>
      have hcopy := sound_copyTracked h (hok (by rw [hqueued]; simp))
      refine ⟨hcopy.owed, fun jobs hjobs => absurd hjobs (by simp), fun jobs hjobs => ?_,
        hcopy.copying, hcopy.flying, hcopy.busy⟩
      obtain rfl := Option.some.inj hjobs
      exact h.queued tracked hqueued
  | commit =>
    show SoundHook (commitRender s) w
    unfold commitRender
    cases hrendering : s.rendering with
    | none => exact h
    | some tracked =>
      refine ⟨h.owed, h.queued, fun jobs hjobs => absurd hjobs (by simp), fun jobs hjobs => ?_,
        h.flying, h.busy⟩
      obtain rfl := Option.some.inj hjobs
      exact h.rendering tracked hrendering
  | copyTracked => exact sound_copyTracked h hok

/-! ## From the first render on -/

theorem isTrackedJob_pending {value : Json} {job : TrackedJob} (h : isTrackedJob value = some job) :
    job.status ∉ TERMINAL := by
  unfold isTrackedJob at h
  split at h
  · split at h
    · split at h
      next hok =>
        obtain rfl := Option.some.inj h
        exact hok.2
      · cases h
    · cases h
  · cases h

theorem entriesOf_keyed (members : List (String × Json)) : Keyed (·.1) (entriesOf members) := by
  have hkeys : Keyed id (members.map (·.1)).eraseDups := by
    unfold Keyed
    rw [List.map_id]
    exact nodup_eraseDups _
  refine hkeys.filterMap fun key entry hentry => ?_
  obtain ⟨value, -, rfl⟩ := Option.map_eq_some_iff.mp hentry
  rfl

theorem restoreTracked_clean (item : Option Json) : Clean (restoreTracked item) := by
  unfold restoreTracked
  split
  next members =>
    constructor
    · refine (entriesOf_keyed members).filterMap fun entry job hentry => ?_
      obtain ⟨-, hkey⟩ := Option.filter_eq_some_iff.mp hentry
      exact (of_decide_eq_true hkey).symm
    · intro job hjob
      obtain ⟨entry, -, hentry⟩ := List.mem_filterMap.mp hjob
      obtain ⟨htracked, -⟩ := Option.filter_eq_some_iff.mp hentry
      exact isTrackedJob_pending htracked
  next => exact Clean.nil

theorem mount_sound (item : Option Json) (visible : Bool) :
    SoundHook (watchedMount item visible).1 (watchedMount item visible).2 := by
  have hclean := restoreTracked_clean item
  refine ⟨⟨hclean, fun jobId => Iff.rfl, rfl⟩, fun jobs hjobs => ?_, fun jobs hjobs => ?_,
    fun jobs hjobs => ?_, ?_, fun _ hjobs => ?_⟩
  · change (if restoreTracked item = [] then none else some (restoreTracked item)) = some jobs
      at hjobs
    split at hjobs
    · cases hjobs
    · obtain rfl := Option.some.inj hjobs
      exact hclean
  · cases hjobs
  · cases hjobs
  · refine ⟨Keyed.nil _, by simp [watchedMount, mount], by simp [watchedMount, mount],
      by simp [watchedMount, mount], rfl, fun id hid => ?_, fun id hid => by cases hid⟩
    change Microtask.finished id ∈ (if restoreTracked item = [] then [] else [Microtask.poll]) at hid
    split at hid
    · exact absurd hid (by simp)
    · exact absurd hid (by simp)
  · -- the restored jobs are polled at once
    refine Or.inr (Or.inr ?_)
    show Microtask.poll ∈ (if restoreTracked item = [] then [] else [Microtask.poll])
    rw [if_neg (show restoreTracked item ≠ [] from hjobs)]
    exact List.mem_cons_self

/-- **No upload drops out of sight.** While the copying effect copies the jobs that are there,
every due job stays in `trackedRef`, `onTerminal` is called once for each job that leaves by a
terminal status, one live poll at most is in flight, and a visible page with jobs will poll. -/
theorem jobs_stay_tracked (item : Option Json) (visible : Bool) {as : List HookAct}
    (h : Along watchedStep HookStepOk (watchedMount item visible) as) :
    Always watchedStep Good (watchedMount item visible) as :=
  always_of_along (fun x => SoundHook x.1 x.2) (fun _ => good_of_sound)
    (fun x a hok hx => watched_sound x a hok hx) h (mount_sound item visible)

/-! ## An upload that is lost -/

/-- An upload that was accepted. -/
def queuedJob (jobId : String) : TrackedJob := ⟨jobId, "document of " ++ jobId, "queued", 0⟩

/-- One job is tracked, rendered and polled to its end, each effect running in time. -/
def oneUpload : List HookAct :=
  [.track (queuedJob "A"), .microtask, .render, .commit, .copyTracked,
    .settle 0 fun _ => .job "completed", .microtask, .render, .commit, .copyTracked]

theorem jobs_stay_tracked_one :
    Always watchedStep Good (watchedMount none true) oneUpload := by
  refine jobs_stay_tracked none true ?_
  unfold oneUpload
  refine ⟨trivial, trivial, fun _ tracked h => ?_, trivial, fun tracked h => ?_, trivial, trivial,
    fun _ tracked h => ?_, trivial, fun tracked h => ?_, trivial⟩
  · cases h
  · obtain rfl := Option.some.inj h
    exact fun jobId => Iff.rfl
  · cases h
  · obtain rfl := Option.some.inj h
    exact fun jobId => Iff.rfl

/-- The second upload is accepted between the commit of the first and its effect; the poll of the
first settles before the next render. -/
def twoUploads : List HookAct :=
  [.track (queuedJob "A"), .microtask, .render, .commit, .track (queuedJob "B"), .copyTracked,
    .microtask, .settle 0 fun _ => .job "running", .microtask, .render, .commit, .copyTracked]

/-- The second upload is due, and neither in `trackedRef` nor on its way there. -/
theorem upload_lost :
    let x := run watchedStep (watchedMount none true) twoUploads
    "B" ∈ x.2.due ∧ x.1.trackedRef.map (·.jobId) = ["A"] ∧
      x.1.queued = none ∧ x.1.rendering = none ∧ x.1.copying = none ∧ ¬ Good x := by
  have hids : (run watchedStep (watchedMount none true) twoUploads).1.trackedRef.map (·.jobId) =
      ["A"] := by rfl
  have hdue : "B" ∈ (run watchedStep (watchedMount none true) twoUploads).2.due :=
    List.mem_cons_of_mem _ List.mem_cons_self
  refine ⟨hdue, hids, rfl, rfl, rfl, fun hgood => ?_⟩
  obtain ⟨job, hjob, hid⟩ := hgood.tracked "B" hdue
  have hmem := List.mem_map_of_mem (f := (·.jobId)) hjob
  rw [hids, hid] at hmem
  exact absurd hmem (by decide)

end LocalRag.Library
