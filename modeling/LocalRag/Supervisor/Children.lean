import LocalRag.Supervisor.Order

/-!
# Children — no process without somebody to stop it

`Supervisor.run`, `_start`, `_validate_caddy`, `_stop_cascade`, `reap_retained` and
`_terminate_and_close` of `supervisor/runtime.py`: the services are started in order,
watched, and stopped and started again together when one of them fails. A process is
in `processes` while its service runs; when it could not be brought down it is in
`_retained_processes`, which the last `finally` goes through once more.

The adapter may answer any of its calls with any value or with an exception. Two
answers break the rule. `_start` closes the identity token in a `finally`, so a
`close_handle` that raises loses a process that is up; and a start whose own cleanup
could not confirm the termination is a startup failure like any other, so the next
round starts the service beside it. `supervision_kept`: in every run without these two
steps each process is down and closed, or in one of the two collections, and was
started when no earlier one of its service was left.

Mirroring notes. `none` is an exception. A process is the number of its creation; what
has become of it is kept with it (`Child`), also what the supervisor does not record.
What a round does besides (diagnostics, clock, sleeping) is an event of its own when
it raises.
-/

namespace LocalRag.Supervisor

open LocalRag.Core

/-! ## Bringing a process down -/

/-- What the adapter answers in one round of the loop. -/
structure Attempt where
  poll : Option (Option Int)
  terminate : Option Unit
  wait : Option Bool
  recheck : Option (Option Int)
deriving Repr, DecidableEq

/-- The answers to `_terminate_and_close`. -/
structure CleanupAnswers where
  attempt : Nat → Attempt
  close : Option Unit

inductive Cleanup where
  | closed
  /-- Terminated, and the handles could not be closed. -/
  | unclosed
  | unconfirmed
deriving Repr, DecidableEq

/-- The round sets `terminated`. -/
def Attempt.confirms (a : Attempt) : Bool :=
  a.poll.any Option.isSome ||
    (a.terminate.isSome && a.wait = some true && a.recheck.any Option.isSome)

/-- `_terminate_and_close`; an error is anything but `closed`. -/
def terminateAndClose (answers : CleanupAnswers) : Cleanup :=
  if ¬ (List.range 3).any fun i => (answers.attempt i).confirms then .unconfirmed
  else if answers.close.isSome then .closed
  else .unclosed

/-! ## The processes -/

/-- A process the adapter created: whether it was created with no earlier one of its
service left, and what the supervisor has been told of its end. -/
structure Child where
  service : String
  clean : Bool
  confirmed : Bool
  closed : Bool
deriving Repr, DecidableEq

/-- `processes` and `_retained_processes`, beside all that was ever created. -/
structure Children where
  created : List Child
  processes : List (String × Nat)
  retained : List Nat
deriving Repr, DecidableEq

def Child.settle (result : Cleanup) (p : Child) : Child :=
  { p with
    confirmed := p.confirmed || result ≠ .unconfirmed
    closed := p.closed || result = .closed }

namespace Children

/-- `adapter.create_suspended`; the process is number `created.length`. -/
def create (s : Children) (service : String) : Children :=
  { s with
    created := s.created ++
      [⟨service, s.created.all fun p => p.service ≠ service ∨ p.confirmed, false, false⟩] }

/-- What is known of a process after it was brought down, or not. -/
def settle (s : Children) (id : Nat) (result : Cleanup) : Children :=
  { s with created := s.created.modify id (Child.settle result) }

/-- `_terminate_and_close`, and the process retained when that fails. -/
def cleanUp (s : Children) (id : Nat) (answers : CleanupAnswers) : Bool × Children :=
  let result := terminateAndClose answers
  let s := s.settle id result
  if result = .closed then (true, s) else (false, { s with retained := s.retained ++ [id] })

end Children

/-! ## Starting a service -/

/-- The answers to `_validate_caddy`. -/
structure ValidationAnswers where
  hasConfig : Bool
  create : Option Unit
  assign : Option Unit
  resume : Option Unit
  wait : Option Bool
  poll : Option (Option Int)
  close : Option Unit
  cleanup : CleanupAnswers

/-- The `try` of `_validate_caddy` goes through. -/
def ValidationAnswers.passes (a : ValidationAnswers) : Bool :=
  a.assign.isSome && a.resume.isSome && a.wait = some true && a.poll = some (some 0) &&
    a.close.isSome

/-- `_validate_caddy`: whether it returned. -/
def validateCaddy (a : ValidationAnswers) (service : String) (s : Children) : Bool × Children :=
  if !a.hasConfig || a.create.isNone then (false, s)
  else
    let validation := s.created.length
    let s := s.create service
    if a.passes then (true, s.settle validation .closed)
    else (false, (s.cleanUp validation a.cleanup).2)

/-- The answers to `_start`. -/
structure StartAnswers where
  environment : Option Unit
  logon : Option Unit
  validation : ValidationAnswers
  create : Option Unit
  assign : Option Unit
  resume : Option Unit
  ready : Option Bool
  cleanup : CleanupAnswers
  closeToken : Option Unit

/-- The inner `try` of `_start` goes through: the service is up. -/
def StartAnswers.comesUp (a : StartAnswers) : Bool :=
  a.assign.isSome && a.resume.isSome && a.ready = some true

/-- Of the services only Caddy has its configuration validated. -/
def validateService (a : StartAnswers) (service : String) (s : Children) : Bool × Children :=
  if service = "caddy" then validateCaddy a.validation service s else (true, s)

/-- `_start`: the process, if it returned one. -/
def startService (a : StartAnswers) (service : String) (s : Children) : Option Nat × Children :=
  if a.environment.isNone || a.logon.isNone then (none, s)
  else
    let validated := validateService a service s
    if !validated.1 || a.create.isNone then (none, validated.2)
    else
      let process := validated.2.created.length
      let s := validated.2.create service
      -- the token is closed on the way out, whatever was to be returned
      if a.comesUp then (if a.closeToken.isSome then some process else none, s)
      else (none, (s.cleanUp process a.cleanup).2)

/-! ## Stopping them -/

/-- The answers of one stop, by service and for what was retained. -/
structure StopAnswers where
  process : String → CleanupAnswers
  retained : Nat → CleanupAnswers

/-- One service of `_stop_cascade`. -/
def stopOne (stop : String → CleanupAnswers) (s : Children) (service : String) : Bool × Children :=
  match s.processes.lookup service with
  | none => (true, s)
  | some id =>
    { s with processes := s.processes.filter (·.1 ≠ service) }.cleanUp id (stop service)

/-- `_stop_cascade`: whether there was no error. -/
def stopCascade (stop : String → CleanupAnswers) : List String → Children → Bool × Children
  | [], s => (true, s)
  | service :: services, s =>
    let stopped := stopOne stop s service
    let rest := stopCascade stop services stopped.2
    (stopped.1 && rest.1, rest.2)

/-- `reap_retained`. -/
def reapRetained (stop : Nat → CleanupAnswers) (s : Children) : Children :=
  { s.retained.foldl (fun s id => s.settle id (terminateAndClose (stop id))) s with
    retained := s.retained.filter fun id => terminateAndClose (stop id) ≠ .closed }

/-! ## The run -/

inductive Control where
  /-- A service of this round is started, then the others. -/
  | starting (service : String) (left : List String)
  | watching
  | ended
deriving Repr, DecidableEq

/-- The round from the services on that are still to be started. -/
def Control.round : List String → Control
  | [] => .watching
  | service :: left => .starting service left

structure Supervision where
  control : Control
  children : Children
deriving Repr, DecidableEq

/-- The last `finally`. -/
def finish (ordered : List String) (final : StopAnswers) (s : Children) : Supervision where
  control := .ended
  children := reapRetained final.retained (stopCascade final.process ordered.reverse s).2

/-- After a failure: the cascade, and another round if it went well and the budget of
the service allows one. -/
def afterFailure (ordered : List String) (stop : String → CleanupAnswers) (allowed : Bool)
    (final : StopAnswers) (s : Children) : Supervision :=
  let stopped := stopCascade stop ordered.reverse s
  if stopped.1 && allowed then ⟨.round ordered, stopped.2⟩
  else finish ordered final stopped.2

inductive RunEvent where
  /-- The next service is started. -/
  | start (answers : StartAnswers) (stop : String → CleanupAnswers) (allowed : Bool)
      (final : StopAnswers)
  /-- `adapter.poll` has an exit code. -/
  | exited (stop : String → CleanupAnswers) (allowed : Bool) (final : StopAnswers)
  /-- Anything else of the round raises. -/
  | interrupted (final : StopAnswers)

def runStep (ordered : List String) (s : Supervision) (e : RunEvent) : Supervision :=
  match s.control, e with
  | .starting service left, .start answers stop allowed final =>
    match startService answers service s.children with
    | (some process, children) =>
      ⟨.round left, { children with processes := setItem children.processes service process }⟩
    | (none, children) => afterFailure ordered stop allowed final children
  | .watching, .exited stop allowed final => afterFailure ordered stop allowed final s.children
  | .starting _ _, .interrupted final | .watching, .interrupted final =>
    finish ordered final s.children
  | _, _ => s

/-- `run` at the start of its first round. -/
def Supervision.start (ordered : List String) : Supervision := ⟨.round ordered, ⟨[], [], []⟩⟩

/-! ## What is promised -/

/-- The process is down and closed, or somebody has it. -/
def Held (s : Children) (i : Nat) : Prop :=
  ∀ p, s.created[i]? = some p →
    (p.confirmed = true ∧ p.closed = true) ∨ i ∈ s.retained ∨ i ∈ s.processes.map (·.2)

/-- The process was started with no earlier one of its service left. -/
def StartedClean (s : Children) (i : Nat) : Prop :=
  ∀ p, s.created[i]? = some p → p.clean = true

/-- What the supervisor promises of each process it created. -/
def ChildrenKept (s : Children) : Prop := ∀ i, Held s i ∧ StartedClean s i

/-- The validation of the configuration, if there is one, goes through. -/
def StartAnswers.validates (a : StartAnswers) (service : String) : Bool :=
  service ≠ "caddy" ∨
    (a.validation.hasConfig ∧ a.validation.create.isSome ∧ a.validation.passes)

/-- The start gets as far as creating the process of the service. -/
def StartAnswers.creates (a : StartAnswers) (service : String) : Bool :=
  a.environment.isSome && a.logon.isSome && a.validates service && a.create.isSome

/-- The validation leaves its process behind, its termination not confirmed. -/
def StartAnswers.leavesValidation (a : StartAnswers) (service : String) : Bool :=
  service = "caddy" ∧ a.validation.hasConfig ∧ a.validation.create.isSome ∧
    ¬ a.validation.passes ∧ terminateAndClose a.validation.cleanup = .unconfirmed

/-- The start leaves a process behind whose termination was not confirmed. -/
def StartAnswers.leavesUnconfirmed (a : StartAnswers) (service : String) : Bool :=
  (a.environment.isSome && a.logon.isSome && a.leavesValidation service) ||
    (a.creates service && !a.comesUp && terminateAndClose a.cleanup = .unconfirmed)

/-- The condition on a step: a token that cannot be closed belongs to no service that
came up, and a start that leaves a process behind is not followed by another round. -/
def Safe (s : Supervision) (e : RunEvent) : Prop :=
  match s.control, e with
  | .starting service _, .start answers stop allowed _ =>
    (answers.creates service = true → answers.comesUp = true →
      answers.closeToken.isSome = true) ∧
      (answers.leavesUnconfirmed service = true →
        allowed = false ∨ ∃ item ∈ s.children.processes, terminateAndClose (stop item.1) ≠ .closed)
  | _, _ => True

/-! ## One process -/

/-- A process whose termination is not confirmed is the one of its service. -/
def Known (s : Children) (i : Nat) : Prop :=
  ∀ p, s.created[i]? = some p → p.confirmed = false → (p.service, i) ∈ s.processes

/-- No process of the service is left. -/
def NoneLeft (s : Children) (service : String) : Prop :=
  ∀ (i : Nat) (p : Child), s.created[i]? = some p → p.service = service → p.confirmed = true

section Processes

variable {s : Children} {i id : Nat} {result : Cleanup} {service : String}

theorem settle_getElem? (s : Children) (id : Nat) (result : Cleanup) (i : Nat) :
    (s.settle id result).created[i]? =
      if id = i then (s.created[i]?).map (Child.settle result) else s.created[i]? := by
  unfold Children.settle
  rw [List.getElem?_modify]
  split <;> simp

variable {p : Child}

/-- What a process becomes: its record only gains. -/
theorem settle_cases (h : (s.settle id result).created[i]? = some p) :
    ∃ q, s.created[i]? = some q ∧ (p = q ∨ (id = i ∧ p = q.settle result)) := by
  rw [settle_getElem?] at h
  split at h
  next hid =>
    obtain ⟨q, hq, rfl⟩ := Option.map_eq_some_iff.1 h
    exact ⟨q, hq, .inr ⟨hid, rfl⟩⟩
  next => exact ⟨p, h, .inl rfl⟩

theorem Held.settle (h : Held s i) : Held (s.settle id result) i := by
  intro p hp
  obtain ⟨q, hq, rfl | ⟨_, rfl⟩⟩ := settle_cases hp
  · exact h p hq
  · refine (h q hq).imp_left ?_
    rintro ⟨hconfirmed, hclosed⟩
    simp [Child.settle, hconfirmed, hclosed]

theorem StartedClean.settle (h : StartedClean s i) : StartedClean (s.settle id result) i := by
  intro p hp
  obtain ⟨q, hq, rfl | ⟨_, rfl⟩⟩ := settle_cases hp
  · exact h p hq
  · exact h q hq

theorem Known.settle (h : Known s i) : Known (s.settle id result) i := by
  intro p hp hconfirmed
  obtain ⟨q, hq, rfl | ⟨_, rfl⟩⟩ := settle_cases hp
  · exact h p hq hconfirmed
  · refine h q hq ?_
    simp only [Child.settle, Bool.or_eq_false_iff] at hconfirmed
    exact hconfirmed.1

/-- The process brought down itself. -/
theorem settle_self (h : (s.settle id result).created[id]? = some p) :
    ∃ q, s.created[id]? = some q ∧ p = q.settle result := by
  rw [settle_getElem?, if_pos rfl] at h
  obtain ⟨q, hq, rfl⟩ := Option.map_eq_some_iff.1 h
  exact ⟨q, hq, rfl⟩

/-- Brought down and closed. -/
theorem held_settle_closed (s : Children) (id : Nat) : Held (s.settle id .closed) id := by
  intro p hp
  obtain ⟨q, -, rfl⟩ := settle_self hp
  simp [Child.settle]

/-- Brought down: nothing is left of it to be known. -/
theorem known_settle (s : Children) (id : Nat) (h : result ≠ .unconfirmed) :
    Known (s.settle id result) id := by
  intro p hp hconfirmed
  obtain ⟨q, -, rfl⟩ := settle_self hp
  simp [Child.settle, h] at hconfirmed

/-! ### Bringing one down -/

@[simp] theorem cleanUp_processes (s : Children) (id : Nat) (answers : CleanupAnswers) :
    (s.cleanUp id answers).2.processes = s.processes := by
  unfold Children.cleanUp
  simp only
  split <;> rfl

variable {answers : CleanupAnswers}

theorem cleanUp_ok : (s.cleanUp id answers).1 = true ↔ terminateAndClose answers = .closed := by
  unfold Children.cleanUp
  simp only
  split <;> simp_all

/-- The record after `cleanUp` is the settled one. -/
theorem cleanUp_created (s : Children) (id : Nat) (answers : CleanupAnswers) :
    (s.cleanUp id answers).2.created = (s.settle id (terminateAndClose answers)).created := by
  unfold Children.cleanUp
  simp only
  split <;> rfl

/-- What could not be brought down is retained, so the process is held either way. -/
theorem held_cleanUp (h : ∀ j ≠ id, Held s j) : ∀ j, Held (s.cleanUp id answers).2 j := by
  intro j
  unfold Children.cleanUp
  simp only
  split
  next hclosed =>
    rw [hclosed]
    by_cases hj : j = id
    · rw [hj]
      exact held_settle_closed s id
    · exact (h j hj).settle
  next =>
    intro p hp
    by_cases hj : j = id
    · exact .inr (.inl (by simp [hj]))
    · refine ((h j hj).settle p hp).imp_right (Or.imp_left fun hin => ?_)
      exact List.mem_append_left _ hin

theorem startedClean_cleanUp (h : StartedClean s i) : StartedClean (s.cleanUp id answers).2 i := by
  intro p hp
  rw [cleanUp_created] at hp
  exact h.settle p hp

theorem known_cleanUp (h : ∀ j ≠ id, Known s j)
    (hresult : terminateAndClose answers ≠ .unconfirmed) :
    ∀ j, Known (s.cleanUp id answers).2 j := by
  intro j p hp hconfirmed
  rw [cleanUp_created] at hp
  rw [cleanUp_processes]
  by_cases hj : j = id
  · subst hj
    exact known_settle s j hresult p hp hconfirmed
  · exact (h j hj).settle p hp hconfirmed

/-! ### Creating one -/

theorem create_cases (h : (s.create service).created[i]? = some p) :
    s.created[i]? = some p ∨
      (i = s.created.length ∧
        p = ⟨service, s.created.all fun q => q.service ≠ service ∨ q.confirmed, false, false⟩) := by
  unfold Children.create at h
  rcases Nat.lt_trichotomy i s.created.length with hlt | heq | hgt
  · rw [List.getElem?_append_left hlt] at h
    exact .inl h
  · subst heq
    simp only [List.getElem?_append_right (Nat.le_refl _), Nat.sub_self,
      List.getElem?_cons_zero, Option.some.injEq] at h
    exact .inr ⟨rfl, h.symm⟩
  · rw [List.getElem?_append_right (Nat.le_of_lt hgt)] at h
    have hout : i - s.created.length ≠ 0 := by omega
    obtain ⟨n, hn⟩ := Nat.exists_eq_succ_of_ne_zero hout
    simp [hn] at h

/-- The others are as they were. -/
theorem create_of_ne (hi : i ≠ s.created.length) (h : (s.create service).created[i]? = some p) :
    s.created[i]? = some p :=
  (create_cases h).resolve_right fun hnew => hi hnew.1

theorem Held.create (h : Held s i) (hi : i ≠ s.created.length) : Held (s.create service) i :=
  fun p hp => h p (create_of_ne hi hp)

theorem Known.create (h : Known s i) (hi : i ≠ s.created.length) : Known (s.create service) i :=
  fun p hp => h p (create_of_ne hi hp)

/-- With none of its service left, the new process starts clean. -/
theorem StartedClean.create (h : StartedClean s i) (hnone : NoneLeft s service) :
    StartedClean (s.create service) i := by
  intro p hp
  rcases create_cases hp with hp | ⟨-, rfl⟩
  · exact h p hp
  · show (s.created.all fun q => q.service ≠ service ∨ q.confirmed) = true
    rw [List.all_eq_true]
    intro q hq
    obtain ⟨j, hj⟩ := List.mem_iff_getElem?.1 hq
    by_cases hservice : q.service = service
    · simp [hnone j q hj hservice]
    · simp [hservice]

end Processes

/-! ## The stop of all -/

section Stops

variable {stop : String → CleanupAnswers} {s : Children} {service : String}

/-- The service without its process. -/
theorem mem_popped {e : String × Nat} :
    e ∈ s.processes.filter (·.1 ≠ service) ↔ e ∈ s.processes ∧ e.1 ≠ service := by
  rw [List.mem_filter, decide_eq_true_eq]

/-- One stop: what is in the dictionary afterwards, and what the result says. -/
theorem stopOne_processes (stop : String → CleanupAnswers) (s : Children) (service : String) :
    ∀ e, e ∈ (stopOne stop s service).2.processes ↔ e ∈ s.processes ∧ e.1 ≠ service := by
  intro e
  unfold stopOne
  cases hlookup : s.processes.lookup service with
  | some id =>
    simp only [cleanUp_processes]
    exact mem_popped
  | none =>
    simp only
    refine ⟨fun he => ⟨he, ?_⟩, fun he => he.1⟩
    rintro rfl
    have hsome := lookup_isSome.2 (List.mem_map.2 ⟨e, he, rfl⟩)
    rw [hlookup] at hsome
    cases hsome

theorem nodup_stopOne (h : (s.processes.map (·.1)).Nodup) :
    ((stopOne stop s service).2.processes.map (·.1)).Nodup := by
  unfold stopOne
  split
  · exact h
  · rw [cleanUp_processes]
    exact h.sublist (List.filter_sublist.map _)

/-- Distinct keys: the service has one process. -/
theorem id_of_mem {i id : Nat} (h : (s.processes.map (·.1)).Nodup)
    (hid : (service, id) ∈ s.processes) (hi : (service, i) ∈ s.processes) : i = id :=
  congrArg Prod.snd (List.inj_on_of_nodup_map h hi hid rfl)

theorem stopOne_kept (hkeys : (s.processes.map (·.1)).Nodup) (h : ChildrenKept s) :
    ChildrenKept (stopOne stop s service).2 := by
  unfold stopOne
  split
  · exact h
  next id hlookup =>
    have hid := mem_of_lookup hlookup
    refine fun i => ⟨held_cleanUp (fun j hj => ?_) i, startedClean_cleanUp (h i).2⟩
    intro p hp
    refine ((h j).1 p hp).imp_right (Or.imp_right fun hin => ?_)
    -- only the process of the service left the dictionary
    obtain ⟨e, he, rfl⟩ := List.mem_map.1 hin
    refine List.mem_map.2 ⟨e, mem_popped.2 ⟨he, ?_⟩, rfl⟩
    rintro rfl
    exact hj (id_of_mem hkeys hid he)

theorem stopOne_known (hkeys : (s.processes.map (·.1)).Nodup) (h : ∀ i, Known s i)
    (hok : (stopOne stop s service).1 = true) : ∀ i, Known (stopOne stop s service).2 i := by
  unfold stopOne at hok ⊢
  split
  · exact h
  next id hlookup =>
    rw [hlookup] at hok
    have hclosed := cleanUp_ok.1 hok
    have hid := mem_of_lookup hlookup
    refine known_cleanUp (fun j hj => ?_) (by rw [hclosed]; exact Cleanup.noConfusion)
    intro p hp hconfirmed
    have hin := h j p hp hconfirmed
    refine mem_popped.2 ⟨hin, ?_⟩
    intro hservice
    have heq : p.service = service := hservice
    rw [heq] at hin
    exact hj (id_of_mem hkeys hid hin)

/-- An error is a process that could not be brought down and closed. -/
theorem stopOne_ok (hok : (stopOne stop s service).1 = true) {id : Nat}
    (hid : (service, id) ∈ s.processes) :
    terminateAndClose (stop service) = .closed := by
  unfold stopOne at hok
  cases hlookup : s.processes.lookup service with
  | none =>
    have hsome := lookup_isSome.2 (List.mem_map.2 ⟨_, hid, rfl⟩)
    rw [hlookup] at hsome
    cases hsome
  | some id' =>
    rw [hlookup] at hok
    exact cleanUp_ok.1 hok

/-- What a cascade over the services does. -/
structure Cascaded (stop : String → CleanupAnswers) (services : List String) (s : Children)
    (result : Bool × Children) : Prop where
  kept : ChildrenKept result.2
  keys : (result.2.processes.map (·.1)).Nodup
  processes : ∀ e, e ∈ result.2.processes ↔ e ∈ s.processes ∧ e.1 ∉ services
  known : result.1 = true → (∀ i, Known s i) → ∀ i, Known result.2 i
  closed : result.1 = true → ∀ e ∈ s.processes, e.1 ∈ services →
    terminateAndClose (stop e.1) = .closed

theorem stopCascade_spec (stop : String → CleanupAnswers) (services : List String)
    (hkeys : (s.processes.map (·.1)).Nodup) (hkept : ChildrenKept s) :
    Cascaded stop services s (stopCascade stop services s) := by
  induction services generalizing s with
  | nil => exact ⟨hkept, hkeys, by simp [stopCascade], fun _ h => h, by simp⟩
  | cons service services ih =>
    have hrest := ih (s := (stopOne stop s service).2) (nodup_stopOne hkeys)
      (stopOne_kept hkeys hkept)
    have hone := stopOne_processes stop s service
    unfold stopCascade
    refine ⟨hrest.kept, hrest.keys, fun e => ?_, fun hok h => ?_, fun hok e he hin => ?_⟩
    · rw [hrest.processes, hone, List.mem_cons, not_or, and_assoc]
    · obtain ⟨hfirst, hothers⟩ := Bool.and_eq_true_iff.1 hok
      exact hrest.known hothers (stopOne_known hkeys h hfirst)
    · obtain ⟨hfirst, hothers⟩ := Bool.and_eq_true_iff.1 hok
      by_cases hservice : e.1 = service
      · subst hservice
        exact stopOne_ok hfirst he
      · have hleft := (List.mem_cons.1 hin).resolve_left hservice
        exact hrest.closed hothers e ((hone e).2 ⟨he, hservice⟩) hleft

/-- The records after a round over the retained processes. -/
theorem settled_cases {results : Nat → Cleanup} {i : Nat} {p : Child} (ids : List Nat)
    (h : (ids.foldl (fun s id => s.settle id (results id)) s).created[i]? = some p) :
    ∃ q, s.created[i]? = some q ∧ p.clean = q.clean ∧
      (q.confirmed = true ∧ q.closed = true → p.confirmed = true ∧ p.closed = true) ∧
      (i ∈ ids → results i = .closed → p.confirmed = true ∧ p.closed = true) := by
  induction ids generalizing s with
  | nil => exact ⟨p, h, rfl, id, fun hi => absurd hi List.not_mem_nil⟩
  | cons id ids ih =>
    obtain ⟨q, hq, hclean, hdone, hclosed⟩ := ih (s := s.settle id (results id)) h
    obtain ⟨r, hr, rfl | ⟨rfl, rfl⟩⟩ := settle_cases hq
    · refine ⟨q, hr, hclean, hdone, fun hi hresult => ?_⟩
      rcases List.mem_cons.1 hi with rfl | hi
      · -- settled at the head, so not left as it was
        obtain ⟨r, -, rfl⟩ := settle_self hq
        rw [hresult] at hdone
        exact hdone (by simp [Child.settle])
      · exact hclosed hi hresult
    · refine ⟨r, hr, hclean, fun hr => hdone ?_, fun _ hresult => hdone ?_⟩
      · simp [Child.settle, hr.1, hr.2]
      · simp [Child.settle, hresult]

theorem settled_processes (results : Nat → Cleanup) (ids : List Nat) (s : Children) :
    (ids.foldl (fun s id => s.settle id (results id)) s).processes = s.processes := by
  induction ids generalizing s with
  | nil => rfl
  | cons id ids ih => exact ih (s.settle id (results id))

/-- What was retained is brought down, or retained again. -/
theorem reapRetained_kept (stop : Nat → CleanupAnswers) (h : ChildrenKept s) :
    ChildrenKept (reapRetained stop s) := by
  intro i
  constructor
  · intro p hp
    obtain ⟨q, hq, -, hdone, hclosed⟩ := settled_cases s.retained hp
    rcases (h i).1 q hq with hq | hretained | hprocess
    · exact .inl (hdone hq)
    · by_cases hresult : terminateAndClose (stop i) = .closed
      · exact .inl (hclosed hretained hresult)
      · exact .inr (.inl (List.mem_filter.2 ⟨hretained, decide_eq_true hresult⟩))
    · refine .inr (.inr ?_)
      show i ∈ (List.foldl _ s s.retained).processes.map (·.2)
      rw [settled_processes]
      exact hprocess
  · intro p hp
    obtain ⟨q, hq, hclean, -, -⟩ := settled_cases s.retained hp
    rw [hclean]
    exact (h i).2 q hq

end Stops

/-! ## The start of one -/

section Starts

variable {a : StartAnswers} {s : Children} {service : String}

/-- What the validation before a start does. -/
structure Validated (a : StartAnswers) (service : String) (s : Children)
    (result : Bool × Children) : Prop where
  ok : result.1 = a.validates service
  processes : result.2.processes = s.processes
  kept : ChildrenKept result.2
  noneLeft : result.1 = true → NoneLeft result.2 service
  known : (∀ i, Known s i) → a.leavesValidation service = false → ∀ i, Known result.2 i

/-- A new process that is brought down or retained leaves the others as they were. -/
theorem held_others (h : ChildrenKept s) :
    ∀ j ≠ s.created.length, Held (s.create service) j :=
  fun j hj => (h j).1.create hj

theorem validateCaddy_spec (hcaddy : service = "caddy") (hkept : ChildrenKept s)
    (hnone : NoneLeft s service) :
    Validated a service s (validateCaddy a.validation service s) := by
  have hvalidates : a.validates service =
      (a.validation.hasConfig && a.validation.create.isSome && a.validation.passes) := by
    simp [StartAnswers.validates, hcaddy, Bool.and_assoc]
  have hclean : ∀ j, StartedClean (s.create service) j := fun j => (hkept j).2.create hnone
  unfold validateCaddy
  split
  next habsent =>
    refine ⟨?_, rfl, hkept, fun hok => (by cases hok), fun hknown _ => hknown⟩
    rw [hvalidates]
    rcases Bool.or_eq_true_iff.1 habsent with h | h <;> simp_all
  next hpresent =>
    obtain ⟨hconfig, hcreate⟩ : a.validation.hasConfig = true ∧
        a.validation.create.isSome = true := by
      simpa [Option.isSome_iff_ne_none] using hpresent
    simp only
    split
    next hpasses =>
      refine ⟨?_, rfl, fun j => ⟨?_, (hclean j).settle⟩, fun _ => ?_, fun hknown _ j => ?_⟩
      · rw [hvalidates, hconfig, hcreate, hpasses]
        rfl
      · by_cases hj : j = s.created.length
        · rw [hj]
          exact held_settle_closed _ _
        · exact (held_others hkept j hj).settle
      · intro j p hp hservice
        by_cases hj : j = s.created.length
        · subst hj
          obtain ⟨q, -, rfl⟩ := settle_self hp
          simp [Child.settle]
        · obtain ⟨q, hq, rfl | ⟨hself, -⟩⟩ := settle_cases hp
          · exact hnone j p (create_of_ne hj hq) hservice
          · exact absurd hself.symm hj
      · by_cases hj : j = s.created.length
        · rw [hj]
          exact known_settle _ _ Cleanup.noConfusion
        · exact ((hknown j).create hj).settle
    next hpasses =>
      refine ⟨?_, by rw [cleanUp_processes]; rfl, fun j => ⟨held_cleanUp (held_others hkept) j,
        startedClean_cleanUp (hclean j)⟩, fun hok => (by cases hok), fun hknown hleaves => ?_⟩
      · rw [hvalidates, hconfig, hcreate]
        simpa using hpasses
      · refine known_cleanUp (fun j hj => (hknown j).create hj) fun hresult => ?_
        simp [StartAnswers.leavesValidation, hcaddy, hconfig, hcreate, hpasses, hresult] at hleaves

theorem validateService_spec (hkept : ChildrenKept s) (hnone : NoneLeft s service) :
    Validated a service s (validateService a service s) := by
  unfold validateService
  split
  next hcaddy => exact validateCaddy_spec hcaddy hkept hnone
  next hcaddy =>
    exact ⟨by simp [StartAnswers.validates, hcaddy], rfl, hkept, fun _ => hnone,
      fun hknown _ => hknown⟩

/-- A validation that goes through leaves nothing. -/
theorem leavesValidation_of_validates (h : a.validates service = true) :
    a.leavesValidation service = false := by
  unfold StartAnswers.validates at h
  unfold StartAnswers.leavesValidation
  by_cases hcaddy : service = "caddy"
  · have hpasses : a.validation.passes = true := by
      rcases of_decide_eq_true h with hother | hall
      · exact absurd hcaddy hother
      · exact hall.2.2
    simp [hpasses]
  · simp [hcaddy]

/-- A start that returned a process: it is the one no collection has yet. -/
structure Up (a : StartAnswers) (service : String) (s : Children) (id : Nat)
    (children : Children) : Prop where
  processes : children.processes = s.processes
  held : ∀ j ≠ id, Held children j
  clean : ∀ j, StartedClean children j
  ofService : ∀ p, children.created[id]? = some p → p.service = service
  known : (∀ i, Known s i) → ∀ j ≠ id, Known children j

/-- A start that raised. -/
structure Down (a : StartAnswers) (service : String) (s children : Children) : Prop where
  processes : children.processes = s.processes
  kept : ChildrenKept children
  known : (∀ i, Known s i) → a.leavesUnconfirmed service = false → ∀ j, Known children j

/-- `_start`, when a token that cannot be closed belongs to no service that came up. -/
theorem startService_spec (hkept : ChildrenKept s) (hnone : NoneLeft s service)
    (htoken : a.creates service = true → a.comesUp = true → a.closeToken.isSome = true) :
    (∀ id children, startService a service s = (some id, children) → Up a service s id children) ∧
      ∀ children, startService a service s = (none, children) → Down a service s children := by
  unfold startService
  split
  next =>
    refine ⟨fun id children h => (by cases h), fun children h => ?_⟩
    cases h
    exact ⟨rfl, hkept, fun hknown _ => hknown⟩
  next hopened =>
    obtain ⟨henvironment, hlogon⟩ : a.environment.isSome = true ∧ a.logon.isSome = true := by
      simpa [Option.isSome_iff_ne_none] using hopened
    have hvalidated := validateService_spec (a := a) hkept hnone
    have hvalidation : a.leavesUnconfirmed service = false → a.leavesValidation service = false := by
      intro hleaves
      simp only [StartAnswers.leavesUnconfirmed, henvironment, hlogon, Bool.true_and,
        Bool.or_eq_false_iff] at hleaves
      exact hleaves.1
    generalize validateService a service s = validated at hvalidated ⊢
    simp only
    split
    next =>
      refine ⟨fun id children h => (by cases h), fun children h => ?_⟩
      cases h
      exact ⟨hvalidated.processes, hvalidated.kept,
        fun hknown hleaves => hvalidated.known hknown (hvalidation hleaves)⟩
    next hcreated =>
      obtain ⟨hok, hcreate⟩ : validated.1 = true ∧ a.create.isSome = true := by
        simpa [Option.isSome_iff_ne_none] using hcreated
      have hcreates : a.creates service = true := by
        simp [StartAnswers.creates, henvironment, hlogon, ← hvalidated.ok, hok, hcreate]
      have hclean : ∀ j, StartedClean (validated.2.create service) j := fun j =>
        (hvalidated.kept j).2.create (hvalidated.noneLeft hok)
      have hknown : (∀ i, Known s i) → a.leavesUnconfirmed service = false →
          ∀ j ≠ validated.2.created.length, Known (validated.2.create service) j :=
        fun hknown hleaves j hj => (hvalidated.known hknown (hvalidation hleaves) j).create hj
      split
      next hup =>
        rw [if_pos (htoken hcreates hup)]
        refine ⟨fun id children h => ?_, fun children h => (by cases h)⟩
        cases h
        have hpassed : a.leavesValidation service = false :=
          leavesValidation_of_validates (hvalidated.ok ▸ hok)
        refine ⟨hvalidated.processes, held_others hvalidated.kept, hclean, fun p hp => ?_,
          fun hk j hj => (hvalidated.known hk hpassed j).create hj⟩
        rcases create_cases hp with hp | ⟨-, rfl⟩
        · rw [List.getElem?_eq_none (Nat.le_refl _)] at hp
          cases hp
        · rfl
      next hup =>
        refine ⟨fun id children h => (by cases h), fun children h => ?_⟩
        cases h
        refine ⟨by rw [cleanUp_processes]; exact hvalidated.processes,
          fun j => ⟨held_cleanUp (held_others hvalidated.kept) j, startedClean_cleanUp (hclean j)⟩,
          fun hk hleaves => known_cleanUp (hknown hk hleaves) fun hresult => ?_⟩
        simp [StartAnswers.leavesUnconfirmed, hcreates, hup, hresult] at hleaves

end Starts

/-! ## The run of the supervisor -/

section Run

variable {ordered : List String} {s : Supervision}

/-- What holds between two steps of a run. -/
structure SupInv (ordered : List String) (s : Supervision) : Prop where
  kept : ChildrenKept s.children
  keys : (s.children.processes.map (·.1)).Nodup
  names : ∀ e ∈ s.children.processes, e.1 ∈ ordered
  /-- Up to the end nothing unconfirmed is merely retained. -/
  known : s.control ≠ .ended → ∀ i, Known s.children i
  /-- The services still to be started have no process. -/
  fresh : ∀ service left, s.control = .starting service left →
    (service :: left).Nodup ∧ ∀ name ∈ service :: left, name ∈ ordered ∧
      ∀ e ∈ s.children.processes, e.1 ≠ name

variable {children : Children}

theorem finish_inv (final : StopAnswers) (hkeys : (children.processes.map (·.1)).Nodup)
    (hkept : ChildrenKept children) (hnames : ∀ e ∈ children.processes, e.1 ∈ ordered) :
    SupInv ordered (finish ordered final children) := by
  have hcascade := stopCascade_spec final.process ordered.reverse hkeys hkept
  have hprocesses : (finish ordered final children).children.processes =
      (stopCascade final.process ordered.reverse children).2.processes :=
    settled_processes _ _ _
  refine ⟨reapRetained_kept _ hcascade.kept, ?_, fun e he => ?_, fun h => absurd rfl h, ?_⟩
  · rw [hprocesses]
    exact hcascade.keys
  · rw [hprocesses, hcascade.processes] at he
    exact hnames e he.1
  · intro service left h
    cases h

/-- The round begins with no process of any service. -/
theorem round_inv {services : List String} (hkept : ChildrenKept children)
    (hkeys : (children.processes.map (·.1)).Nodup)
    (hnames : ∀ e ∈ children.processes, e.1 ∈ ordered) (hknown : ∀ i, Known children i)
    (hnodup : services.Nodup)
    (hservices : ∀ name ∈ services, name ∈ ordered ∧ ∀ e ∈ children.processes, e.1 ≠ name) :
    SupInv ordered ⟨.round services, children⟩ := by
  refine ⟨hkept, hkeys, hnames, fun _ => hknown, fun service left h => ?_⟩
  cases services with
  | nil => cases h
  | cons name services =>
    cases h
    exact ⟨hnodup, hservices⟩

theorem afterFailure_inv (hordered : ordered.Nodup) (stop : String → CleanupAnswers)
    (allowed : Bool) (final : StopAnswers) (hkeys : (children.processes.map (·.1)).Nodup)
    (hkept : ChildrenKept children) (hnames : ∀ e ∈ children.processes, e.1 ∈ ordered)
    (hknown : allowed = true → (∀ e ∈ children.processes, terminateAndClose (stop e.1) = .closed) →
      ∀ i, Known children i) :
    SupInv ordered (afterFailure ordered stop allowed final children) := by
  have hcascade := stopCascade_spec stop ordered.reverse hkeys hkept
  have hleft : ∀ e ∈ (stopCascade stop ordered.reverse children).2.processes, e.1 ∈ ordered :=
    fun e he => hnames e ((hcascade.processes e).1 he).1
  unfold afterFailure
  simp only
  split
  next hagain =>
    obtain ⟨hok, hallowed⟩ := Bool.and_eq_true_iff.1 hagain
    have hclosed : ∀ e ∈ children.processes, terminateAndClose (stop e.1) = .closed :=
      fun e he => hcascade.closed hok e he (List.mem_reverse.2 (hnames e he))
    refine round_inv hcascade.kept hcascade.keys hleft
      (hcascade.known hok (hknown hallowed hclosed)) hordered fun name hname => ⟨hname, ?_⟩
    rintro e he rfl
    exact ((hcascade.processes e).1 he).2 (List.mem_reverse.2 hname)
  next => exact finish_inv final hcascade.keys hcascade.kept hleft

/-- With no process of the service in the dictionary, none of it is left. -/
theorem noneLeft_of_known {service : String} (h : ∀ i, Known children i)
    (hfresh : ∀ e ∈ children.processes, e.1 ≠ service) : NoneLeft children service := by
  intro i p hp hservice
  cases hconfirmed : p.confirmed with
  | true => rfl
  | false => exact absurd hservice (hfresh _ (h i p hp hconfirmed))

theorem start_inv (ordered : List String) : ordered.Nodup → SupInv ordered (.start ordered) := by
  intro hordered
  refine round_inv (fun i => ⟨?_, ?_⟩) List.nodup_nil (by simp) (fun i p hp => ?_) hordered
    fun name hname => ⟨hname, by simp⟩
  · intro p hp
    simp at hp
  · intro p hp
    simp at hp
  · simp at hp

/-- A service that came up has its process in the dictionary. -/
theorem up_inv {service : String} {left : List String} {a : StartAnswers} {id : Nat}
    (h : SupInv ordered s) (hcontrol : s.control = .starting service left)
    (hup : Up a service s.children id children) :
    SupInv ordered
      ⟨.round left, { children with processes := setItem children.processes service id }⟩ := by
  obtain ⟨hnodup, hnames⟩ := h.fresh service left hcontrol
  have hactive : s.control ≠ .ended := by
    rw [hcontrol]
    exact Control.noConfusion
  obtain ⟨hservice, hnew⟩ := hnames service List.mem_cons_self
  have hitems : setItem children.processes service id =
      s.children.processes ++ [(service, id)] := by
    rw [hup.processes]
    unfold setItem
    refine if_neg fun hsome => ?_
    obtain ⟨e, he, hkey⟩ := List.mem_map.1 (lookup_isSome.1 hsome)
    exact hnew e he hkey
  have hmem : ∀ e, e ∈ setItem children.processes service id ↔
      e ∈ children.processes ∨ e = (service, id) := by
    intro e
    rw [hitems, hup.processes, List.mem_append, List.mem_singleton]
  refine round_inv (fun i => ⟨?_, hup.clean i⟩) ?_ (fun e he => ?_) (fun i p hp hconfirmed => ?_)
    (List.nodup_cons.1 hnodup).2 fun name hname => ⟨?_, fun e he => ?_⟩
  · -- held: the new one by the dictionary, the others as before
    intro p hp
    by_cases hi : i = id
    · exact .inr (.inr (List.mem_map.2 ⟨(service, id), (hmem _).2 (.inr rfl), hi.symm⟩))
    · refine (hup.held i hi p hp).imp_right (Or.imp_right fun hin => ?_)
      obtain ⟨e, he, rfl⟩ := List.mem_map.1 hin
      exact List.mem_map.2 ⟨e, (hmem e).2 (.inl he), rfl⟩
  · show ((setItem children.processes service id).map (·.1)).Nodup
    rw [hitems, List.map_append, List.nodup_append]
    refine ⟨h.keys, by simp, fun key hkey key' hkey' => ?_⟩
    obtain ⟨e, he, rfl⟩ := List.mem_map.1 hkey
    rw [List.map_singleton, List.mem_singleton] at hkey'
    rw [hkey']
    exact hnew e he
  · rcases (hmem e).1 he with he | rfl
    · rw [hup.processes] at he
      exact h.names e he
    · exact hservice
  · refine (hmem _).2 ?_
    by_cases hi : i = id
    · subst hi
      rw [hup.ofService p hp]
      exact .inr rfl
    · exact .inl (hup.known (h.known hactive) i hi p hp hconfirmed)
  · exact (hnames name (List.mem_cons_of_mem _ hname)).1
  · rcases (hmem e).1 he with he | rfl
    · rw [hup.processes] at he
      exact (hnames name (List.mem_cons_of_mem _ hname)).2 e he
    · rintro rfl
      exact (List.nodup_cons.1 hnodup).1 hname

/-- Every safe step keeps what holds between two steps. -/
theorem runStep_inv (hordered : ordered.Nodup) {e : RunEvent} (hsafe : Safe s e)
    (h : SupInv ordered s) : SupInv ordered (runStep ordered s e) := by
  unfold runStep
  split
  next service left answers stop allowed final hcontrol =>
    have hactive : s.control ≠ .ended := by
      rw [hcontrol]
      exact Control.noConfusion
    unfold Safe at hsafe
    rw [hcontrol] at hsafe
    obtain ⟨htoken, hleaves⟩ := hsafe
    have hnone : NoneLeft s.children service := noneLeft_of_known (h.known hactive)
      ((h.fresh service left hcontrol).2 service List.mem_cons_self).2
    obtain ⟨hsome, hraised⟩ := startService_spec h.kept hnone htoken
    split
    next id children hstart => exact up_inv h hcontrol (hsome id children hstart)
    next children hstart =>
      have hdown := hraised children hstart
      refine afterFailure_inv hordered stop allowed final ?_ hdown.kept ?_ ?_
      · rw [hdown.processes]
        exact h.keys
      · rw [hdown.processes]
        exact h.names
      · intro hallowed hclosed
        refine hdown.known (h.known hactive) ?_
        by_contra hunconfirmed
        rcases hleaves (by simpa using hunconfirmed) with hstop | ⟨item, hitem, hopen⟩
        · rw [hallowed] at hstop
          cases hstop
        · rw [hdown.processes] at hclosed
          exact hopen (hclosed item hitem)
  next stop allowed final hcontrol =>
    refine afterFailure_inv hordered stop allowed final h.keys h.kept h.names fun _ _ => ?_
    refine h.known ?_
    rw [hcontrol]
    exact Control.noConfusion
  next => exact finish_inv _ h.keys h.kept h.names
  next => exact finish_inv _ h.keys h.kept h.names
  next => exact h

end Run

/-! ## The order of the services -/

/-- Setting an item under the key it names keeps the keys distinct and right. -/
theorem setItem_named {items : List (String × Service)} (t : Service)
    (hkeys : (items.map (·.1)).Nodup) (hnamed : ∀ item ∈ items, item.1 = item.2.name) :
    ((setItem items t.name t).map (·.1)).Nodup ∧
      ∀ item ∈ setItem items t.name t, item.1 = item.2.name := by
  unfold setItem
  split
  · have hsame : (items.map fun item => if item.1 = t.name then (t.name, t) else item).map (·.1) =
        items.map (·.1) := by
      rw [List.map_map]
      refine List.map_congr_left fun item _ => ?_
      show (if item.1 = t.name then (t.name, t) else item).1 = item.1
      split
      next hkey => exact hkey.symm
      next => rfl
    refine ⟨by rw [hsame]; exact hkeys, fun item hitem => ?_⟩
    obtain ⟨old, hold, rfl⟩ := List.mem_map.1 hitem
    split
    · rfl
    · exact hnamed old hold
  next hnew =>
    have habsent : t.name ∉ items.map (·.1) := fun hin => hnew (lookup_isSome.2 hin)
    refine ⟨?_, fun item hitem => ?_⟩
    · rw [List.map_append, List.nodup_append]
      refine ⟨hkeys, by simp, fun key hkey key' hkey' => ?_⟩
      rw [List.map_singleton, List.mem_singleton] at hkey'
      rw [hkey']
      rintro rfl
      exact habsent hkey
    · rcases List.mem_append.1 hitem with hitem | hitem
      · exact hnamed item hitem
      · rw [List.mem_singleton.1 hitem]

/-- A dictionary by name has each name once. -/
theorem nodup_byName (services : List Service) :
    (((byName id services).map (·.2)).map (·.name)).Nodup := by
  have hfold : ((byName id services).map (·.1)).Nodup ∧
      ∀ item ∈ byName id services, item.1 = item.2.name := by
    induction services using List.reverseRecOn with
    | nil => exact ⟨List.nodup_nil, by simp [byName]⟩
    | append_singleton services t ih =>
      unfold byName at ih ⊢
      rw [List.foldl_append]
      exact setItem_named t ih.1 ih.2
  rw [List.map_map]
  have hnames : (byName id services).map ((·.name) ∘ (·.2)) = (byName id services).map (·.1) :=
    List.map_congr_left fun item hitem => (hfold.2 item hitem).symm
  rw [hnames]
  exact hfold.1

/-- Each service has one place in the order. -/
theorem nodup_ordered {services ordered : List Service}
    (h : orderedServices services = .ok ordered) : (ordered.map (·.name)).Nodup := by
  have hnames := nodup_byName services
  unfold orderedServices at h
  rw [orderLoop_eq hnames] at h
  cases hlayers : layers Needs ((byName id services).map (·.2)) with
  | none =>
    rw [hlayers] at h
    cases h
  | some ls =>
    rw [hlayers] at h
    cases h
    have hperm : (ls.flatMap sortedByName).Perm ((byName id services).map (·.2)) := by
      refine List.Perm.trans ?_ (layers_perm hlayers)
      rw [← List.flatMap_id]
      exact List.Perm.flatMap_left ls fun layer _ => sortedByName_perm layer
    exact (hperm.map _).nodup_iff.mpr hnames

/-- In a run whose steps are safe, every process the adapter created is in every state
down and closed or held in one of the two collections, and was started when no earlier
one of its service was left. -/
theorem supervision_kept {services ordered : List Service}
    (hordered : orderedServices services = .ok ordered) {events : List RunEvent}
    (h : Along (runStep (ordered.map (·.name))) Safe (.start (ordered.map (·.name))) events) :
    Always (runStep (ordered.map (·.name))) (fun s => ChildrenKept s.children)
      (.start (ordered.map (·.name))) events := by
  have hnodup := nodup_ordered hordered
  exact always_of_along (SupInv (ordered.map (·.name))) (fun _ hinv => hinv.kept)
    (fun _ _ hsafe hinv => runStep_inv hnodup hsafe hinv) h (start_inv _ hnodup)

/-! ## One service -/

/-- A process that is up until it is told to stop, and stops at once. -/
def obedient : CleanupAnswers := ⟨fun _ => ⟨some none, some (), some true, some (some 1)⟩, some ()⟩

/-- The adapter cannot terminate the process. -/
def stubborn : CleanupAnswers := ⟨fun _ => ⟨some none, none, none, none⟩, some ()⟩

/-- A start of the API; the readiness check, the cleanup and the token as given. -/
def apiStart (ready : Bool) (cleanup : CleanupAnswers) (closeToken : Option Unit) :
    StartAnswers where
  environment := some ()
  logon := some ()
  validation := ⟨false, none, none, none, none, none, none, obedient⟩
  create := some ()
  assign := some ()
  resume := some ()
  ready := some ready
  cleanup := cleanup
  closeToken := closeToken

def obedientStops : StopAnswers := ⟨fun _ => obedient, fun _ => obedient⟩

/-- A failed start, a second round, an exit and the end. -/
def apiRun : List RunEvent :=
  [.start (apiStart false obedient (some ())) (fun _ => obedient) true obedientStops,
    .start (apiStart true obedient (some ())) (fun _ => obedient) true obedientStops,
    .exited (fun _ => obedient) false obedientStops]

theorem orderedServices_api : orderedServices [⟨"api", []⟩] = .ok [⟨"api", []⟩] := by
  have hready : ready Needs [⟨"api", []⟩] = [⟨"api", []⟩] := by decide
  have hblocked : blocked Needs [⟨"api", []⟩] = [] := by decide
  rw [orderedServices_eq (by decide), layers_next (by rw [hready]; exact List.cons_ne_nil _ _),
    hready, hblocked, layers_nil]
  simp [sortedByName]

theorem apiRun_safe : Along (runStep ["api"]) Safe (.start ["api"]) apiRun :=
  have hstart : Safe (.start ["api"])
      (.start (apiStart false obedient (some ())) (fun _ => obedient) true obedientStops) :=
    And.intro (fun _ _ => rfl) fun h => absurd h (by decide)
  have hagain : Safe ⟨.starting "api" [], ⟨[⟨"api", true, true, true⟩], [], []⟩⟩
      (.start (apiStart true obedient (some ())) (fun _ => obedient) true obedientStops) :=
    And.intro (fun _ _ => rfl) fun h => absurd h (by decide)
  ⟨hstart, hagain, trivial, trivial⟩

theorem supervision_kept_api :
    Always (runStep ["api"]) (fun s => ChildrenKept s.children) (.start ["api"]) apiRun :=
  supervision_kept orderedServices_api apiRun_safe

/-- The service comes up and its token cannot be closed: the process runs, and neither
collection has it. -/
theorem unclosed_token_loses :
    (run (runStep ["api"]) (.start ["api"])
      [.start (apiStart true obedient none) (fun _ => obedient) false obedientStops]).children =
      ⟨[⟨"api", true, false, false⟩], [], []⟩ ∧
    ¬ ChildrenKept ⟨[⟨"api", true, false, false⟩], [], []⟩ ∧
    -- and a start that could not terminate its process is followed by another
    (run (runStep ["api"]) (.start ["api"])
      [.start (apiStart false stubborn (some ())) (fun _ => obedient) true obedientStops,
        .start (apiStart true obedient (some ())) (fun _ => obedient) true
          obedientStops]).children =
      ⟨[⟨"api", true, false, false⟩, ⟨"api", false, false, false⟩], [("api", 1)], [0]⟩ := by
  refine ⟨by decide, fun hkept => ?_, by decide⟩
  rcases (hkept 0).1 _ rfl with ⟨hconfirmed, -⟩ | hretained | hprocess
  · cases hconfirmed
  · cases hretained
  · cases hprocess

end LocalRag.Supervisor
