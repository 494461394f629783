import LocalRag.Core.Run

/-!
# Leases — fencing tokens only grow

Mirrors `LeaseRegistry` (`app/runtime/leases.py`). Two dictionaries: the lease of each
resource, and the last token handed out for it. A claim over an expired or released lease takes the
next token; a heartbeat renews a lease under its token; a release forgets the lease and
leaves the token.

Everything follows from one floor under a resource, `Past`: a token that was handed out
stays at or below the counter and at or below the token of the lease, whatever is called after
that. A lease with a smaller token is refused from then on, since `validate` compares
tokens; when it says it expires does not matter.

Mirroring notes.
* Clock readings and durations are integers of some unit. A call gets the readings it
  takes: `heartbeat` takes one to validate and one to renew. Nothing below needs them to be
  in order.
* A `Lease` that is passed in is any value, also one that was never handed out.
-/

namespace LocalRag.Runtime

open LocalRag.Core

structure Lease where
  resourceId : String
  ownerId : String
  fencingToken : Nat
  expiresAt : Int
deriving Repr, DecidableEq

/-- What the methods raise: `ValueError`, `LeaseConflictError`, `StaleLeaseError`. -/
inductive LeaseError where
  | value (message : String)
  | conflict (message : String)
  | stale (message : String)
deriving Repr, DecidableEq

structure LeaseRegistry where
  leases : String → Option Lease
  /-- `_next_fence`, with its default. -/
  nextFence : String → Nat

/-- A registry just made. -/
def LeaseRegistry.new : LeaseRegistry := ⟨fun _ => none, fun _ => 0⟩

/-! ## The methods -/

/-- `claim`. -/
def LeaseRegistry.claim (r : LeaseRegistry) (resourceId ownerId : String) (ttlSeconds now : Int) :
    Except LeaseError (Lease × LeaseRegistry) :=
  if resourceId = "" ∨ ownerId = "" then
    .error (.value "resource_id and owner_id are required")
  else if ttlSeconds ≤ 0 then .error (.value "ttl_seconds must be positive")
  else if (r.leases resourceId).any fun current => now < current.expiresAt then
    .error (.conflict "resource has an active lease")
  else
    let token := r.nextFence resourceId + 1
    let lease : Lease := ⟨resourceId, ownerId, token, now + ttlSeconds⟩
    .ok (lease, ⟨Function.update r.leases resourceId (some lease),
      Function.update r.nextFence resourceId token⟩)

/-- `validate`. -/
def LeaseRegistry.validate (r : LeaseRegistry) (lease : Lease) (now : Int) :
    Except LeaseError Unit :=
  match r.leases lease.resourceId with
  | none => .error (.stale "lease is absent, expired, or fenced")
  | some current =>
    if current.ownerId ≠ lease.ownerId ∨ current.fencingToken ≠ lease.fencingToken ∨
        current.expiresAt ≤ now then
      .error (.stale "lease is absent, expired, or fenced")
    else .ok ()

/-- `heartbeat`. -/
def LeaseRegistry.heartbeat (r : LeaseRegistry) (lease : Lease) (ttlSeconds now later : Int) :
    Except LeaseError (Lease × LeaseRegistry) :=
  if ttlSeconds ≤ 0 then .error (.value "ttl_seconds must be positive")
  else
    match r.validate lease now with
    | .error e => .error e
    | .ok () =>
      let renewed : Lease := { lease with expiresAt := later + ttlSeconds }
      .ok (renewed, { r with leases := Function.update r.leases lease.resourceId (some renewed) })

/-- `release`. -/
def LeaseRegistry.release (r : LeaseRegistry) (lease : Lease) (now : Int) :
    Except LeaseError LeaseRegistry :=
  match r.validate lease now with
  | .error e => .error e
  | .ok () => .ok { r with leases := Function.update r.leases lease.resourceId none }

/-! ## Runs -/

inductive LeaseCall where
  | claim (resourceId ownerId : String) (ttlSeconds now : Int)
  | heartbeat (lease : Lease) (ttlSeconds now later : Int)
  | validate (lease : Lease) (now : Int)
  | release (lease : Lease) (now : Int)
deriving Repr, DecidableEq

/-- What a call answers, and the registry after it. -/
def callLease (r : LeaseRegistry) : LeaseCall → Except LeaseError (LeaseRegistry × Option Lease)
  | .claim resourceId ownerId ttlSeconds now =>
    (r.claim resourceId ownerId ttlSeconds now).map fun p => (p.2, some p.1)
  | .heartbeat lease ttlSeconds now later =>
    (r.heartbeat lease ttlSeconds now later).map fun p => (p.2, some p.1)
  | .validate lease now => (r.validate lease now).map fun _ => (r, none)
  | .release lease now => (r.release lease now).map fun r => (r, none)

/-- A call that raises changes nothing. -/
def leaseStep (r : LeaseRegistry) (call : LeaseCall) : LeaseRegistry := commit r (callLease r call)

/-- The registry after these calls. -/
def registryAfter (calls : List LeaseCall) : LeaseRegistry := run leaseStep LeaseRegistry.new calls

/-- A claim that succeeds hands out this lease. -/
def Claims (r : LeaseRegistry) (resourceId ownerId : String) (ttlSeconds now : Int)
    (lease : Lease) : Prop :=
  ∃ r', r.claim resourceId ownerId ttlSeconds now = .ok (lease, r')

/-! ## What a call changes -/

variable {r : LeaseRegistry} {resourceId : String} {now : Int} {lease : Lease}

variable {r' : LeaseRegistry} {ownerId : String} {ttlSeconds : Int}

theorem claim_ok (h : r.claim resourceId ownerId ttlSeconds now = .ok (lease, r')) :
    lease.resourceId = resourceId ∧ lease.fencingToken = r.nextFence resourceId + 1 ∧
      r'.leases = Function.update r.leases resourceId (some lease) ∧
      r'.nextFence = Function.update r.nextFence resourceId lease.fencingToken := by
  unfold LeaseRegistry.claim at h
  obtain ⟨-, h⟩ := ite_error_eq_ok.mp h
  obtain ⟨-, h⟩ := ite_error_eq_ok.mp h
  obtain ⟨-, h⟩ := ite_error_eq_ok.mp h
  obtain ⟨rfl, rfl⟩ := Prod.mk.inj (Except.ok.inj h)
  exact ⟨rfl, rfl, rfl, rfl⟩

/-- A lease that validates is the one on record, up to when it expires. -/
theorem validate_ok (h : r.validate lease now = .ok ()) :
    ∃ current, r.leases lease.resourceId = some current ∧
      current.ownerId = lease.ownerId ∧ current.fencingToken = lease.fencingToken ∧
      now < current.expiresAt := by
  unfold LeaseRegistry.validate at h
  split at h
  · exact absurd h (by simp)
  next current hcurrent =>
    obtain ⟨hsame, -⟩ := ite_error_eq_ok.mp h
    refine ⟨current, hcurrent, ?_, ?_, ?_⟩
    · by_contra hne
      exact hsame (Or.inl hne)
    · by_contra hne
      exact hsame (Or.inr (Or.inl hne))
    · by_contra hle
      exact hsame (Or.inr (Or.inr (by omega)))

theorem heartbeat_ok {renewed : Lease} {later : Int}
    (h : r.heartbeat lease ttlSeconds now later = .ok (renewed, r')) :
    r.validate lease now = .ok () ∧ renewed.fencingToken = lease.fencingToken ∧
      r'.leases = Function.update r.leases lease.resourceId (some renewed) ∧
      r'.nextFence = r.nextFence := by
  unfold LeaseRegistry.heartbeat at h
  obtain ⟨-, h⟩ := ite_error_eq_ok.mp h
  split at h
  · exact absurd h (by simp)
  next hvalid =>
    obtain ⟨rfl, rfl⟩ := Prod.mk.inj (Except.ok.inj h)
    exact ⟨hvalid, rfl, rfl, rfl⟩

theorem release_ok (h : r.release lease now = .ok r') :
    r'.leases = Function.update r.leases lease.resourceId none ∧ r'.nextFence = r.nextFence := by
  unfold LeaseRegistry.release at h
  split at h
  · exact absurd h (by simp)
  · obtain rfl := Except.ok.inj h
    exact ⟨rfl, rfl⟩

/-! ## The floor -/

/-- The token has been handed out for the resource: the counter and the lease on record have
reached it. -/
structure Past (resourceId : String) (token : Nat) (r : LeaseRegistry) : Prop where
  counter : token ≤ r.nextFence resourceId
  lease : ∀ current, r.leases resourceId = some current → token ≤ current.fencingToken

theorem past_claim (h : r.claim resourceId ownerId ttlSeconds now = .ok (lease, r')) :
    Past resourceId lease.fencingToken r' := by
  obtain ⟨-, -, hleases, hfence⟩ := claim_ok h
  constructor
  · have hcount : r'.nextFence resourceId = lease.fencingToken := by
      rw [hfence, Function.update_self]
    exact Nat.le_of_eq hcount.symm
  · intro current hcurrent
    rw [hleases, Function.update_self] at hcurrent
    exact Nat.le_of_eq (congrArg Lease.fencingToken (Option.some.inj hcurrent))

variable {token : Nat}

/-- A write of one resource keeps the floor if the counter stays above it and the lease written
is on it. -/
theorem Past.write {written : String} (h : Past resourceId token r) {new : Option Lease}
    (hleases : r'.leases = Function.update r.leases written new)
    (hcounter : r.nextFence resourceId ≤ r'.nextFence resourceId)
    (hnew : resourceId = written → ∀ lease, new = some lease → token ≤ lease.fencingToken) :
    Past resourceId token r' := by
  refine ⟨Nat.le_trans h.counter hcounter, fun current hcurrent => ?_⟩
  rw [hleases] at hcurrent
  by_cases hres : resourceId = written
  · rw [hres, Function.update_self] at hcurrent
    exact hnew hres current hcurrent
  · rw [Function.update_of_ne hres] at hcurrent
    exact h.lease current hcurrent

/-- No call goes below the floor. -/
theorem Past.step {resourceId : String} {token : Nat} {r : LeaseRegistry}
    (h : Past resourceId token r) (call : LeaseCall) : Past resourceId token (leaseStep r call) := by
  unfold leaseStep
  cases hcall : callLease r call with
  | error e => exact h
  | ok p =>
    obtain ⟨r', answer⟩ := p
    show Past resourceId token r'
    cases call with
    | claim claimed ownerId ttlSeconds now =>
      obtain ⟨⟨lease, next⟩, hclaim, heq⟩ := map_eq_ok.mp hcall
      obtain ⟨rfl, -⟩ := Prod.mk.inj heq
      obtain ⟨-, htoken, hleases, hfence⟩ := claim_ok hclaim
      refine h.write hleases ?_ ?_
      · by_cases hres : resourceId = claimed
        · rw [hfence, hres, Function.update_self]
          omega
        · exact Nat.le_of_eq (by rw [hfence, Function.update_of_ne hres])
      · intro hres current hcurrent
        rw [← Option.some.inj hcurrent, htoken, ← hres]
        exact Nat.le_succ_of_le h.counter
    | heartbeat lease ttlSeconds now later =>
      obtain ⟨⟨renewed, next⟩, hheartbeat, heq⟩ := map_eq_ok.mp hcall
      obtain ⟨rfl, -⟩ := Prod.mk.inj heq
      obtain ⟨hvalid, htoken, hleases, hfence⟩ := heartbeat_ok hheartbeat
      obtain ⟨old, hold, -, hsame, -⟩ := validate_ok hvalid
      refine h.write hleases (Nat.le_of_eq (by rw [hfence])) fun hres current hcurrent => ?_
      -- the renewed lease has the token of the one it replaces
      rw [← Option.some.inj hcurrent, htoken, ← hsame]
      exact h.lease old (hres ▸ hold)
    | validate lease now =>
      obtain ⟨_, -, heq⟩ := map_eq_ok.mp hcall
      obtain ⟨rfl, -⟩ := Prod.mk.inj heq
      exact h
    | release lease now =>
      obtain ⟨next, hrelease, heq⟩ := map_eq_ok.mp hcall
      obtain ⟨rfl, -⟩ := Prod.mk.inj heq
      obtain ⟨hleases, hfence⟩ := release_ok hrelease
      exact h.write hleases (Nat.le_of_eq (by rw [hfence])) nofun

theorem Past.run (h : Past resourceId token r) (calls : List LeaseCall) :
    Past resourceId token (run leaseStep r calls) :=
  run_inv_of_step (Past resourceId token) (fun _ call hr => hr.step call) calls h

/-- A lease below the floor is stale. -/
theorem Past.stale {lease : Lease} {token : Nat} {r : LeaseRegistry}
    (h : Past lease.resourceId token r) (hlt : lease.fencingToken < token) (now : Int) :
    r.validate lease now = .error (.stale "lease is absent, expired, or fenced") := by
  unfold LeaseRegistry.validate
  split
  · rfl
  next current hcurrent =>
    have hle := h.lease current hcurrent
    rw [if_pos (Or.inr (Or.inl (by omega)))]

/-- Where a claim and the calls after it lead, its token is past. -/
theorem past_after {before : List LeaseCall}
    (h : Claims (registryAfter before) resourceId ownerId ttlSeconds now lease)
    (calls : List LeaseCall) :
    Past resourceId lease.fencingToken
      (registryAfter (before ++ .claim resourceId ownerId ttlSeconds now :: calls)) := by
  obtain ⟨r', hclaim⟩ := h
  unfold registryAfter
  rw [run_append, run_cons]
  apply Past.run
  have hstep : run leaseStep LeaseRegistry.new before = registryAfter before := rfl
  have hcall : callLease (registryAfter before) (.claim resourceId ownerId ttlSeconds now) =
      .ok (r', some lease) := map_eq_ok.mpr ⟨_, hclaim, rfl⟩
  rw [hstep]
  unfold leaseStep
  rw [hcall]
  exact past_claim hclaim

/-- A claim over a token that is past takes a larger one. -/
theorem Past.lt_claim (h : Past resourceId token r)
    (hclaim : Claims r resourceId ownerId ttlSeconds now lease) : token < lease.fencingToken := by
  obtain ⟨r', hclaim⟩ := hclaim
  obtain ⟨-, htoken, -⟩ := claim_ok hclaim
  have hcounter := h.counter
  omega

/-! ## Refused leases -/

/-- Every method given this lease raises, and the registry stays as it is. -/
structure Refused (r : LeaseRegistry) (lease : Lease) : Prop where
  validate : ∀ now, ∃ e, r.validate lease now = .error e ∧ leaseStep r (.validate lease now) = r
  heartbeat : ∀ ttlSeconds now later, ∃ e, r.heartbeat lease ttlSeconds now later = .error e ∧
    leaseStep r (.heartbeat lease ttlSeconds now later) = r
  release : ∀ now, ∃ e, r.release lease now = .error e ∧ leaseStep r (.release lease now) = r

theorem map_eq_error {ε α β : Type} {x : Except ε α} {f : α → β} {e : ε} (h : x = .error e) :
    x.map f = .error e := by
  rw [h]
  rfl

theorem leaseStep_error {call : LeaseCall} {e : LeaseError} (h : callLease r call = .error e) :
    leaseStep r call = r := by
  unfold leaseStep
  rw [h]
  rfl

/-- A lease that never validates is refused by all three. -/
theorem refused_of_stale (h : ∀ now, ∃ e, r.validate lease now = .error e) : Refused r lease := by
  constructor
  · intro now
    obtain ⟨e, he⟩ := h now
    exact ⟨e, he, leaseStep_error (map_eq_error he)⟩
  · intro ttlSeconds now later
    have hraises : ∃ e, r.heartbeat lease ttlSeconds now later = .error e := by
      unfold LeaseRegistry.heartbeat
      by_cases httl : ttlSeconds ≤ 0
      · rw [if_pos httl]
        exact ⟨_, rfl⟩
      · obtain ⟨e, he⟩ := h now
        rw [if_neg httl, he]
        exact ⟨e, rfl⟩
    obtain ⟨e, he⟩ := hraises
    exact ⟨e, he, leaseStep_error (map_eq_error he)⟩
  · intro now
    obtain ⟨e, he⟩ := h now
    have hraises : r.release lease now = .error e := by
      unfold LeaseRegistry.release
      rw [he]
    exact ⟨e, hraises, leaseStep_error (map_eq_error hraises)⟩

/-- Two leases of one resource that validate at the same time name one owner and one token. -/
theorem validate_unique {other : Lease} (hresource : lease.resourceId = other.resourceId)
    (h : r.validate lease now = .ok ()) (hother : r.validate other now = .ok ()) :
    lease.ownerId = other.ownerId ∧ lease.fencingToken = other.fencingToken := by
  obtain ⟨current, hcurrent, howner, htoken, -⟩ := validate_ok h
  obtain ⟨current', hcurrent', howner', htoken', -⟩ := validate_ok hother
  rw [hresource, hcurrent'] at hcurrent
  obtain rfl := Option.some.inj hcurrent
  exact ⟨howner.symm.trans howner', htoken.symm.trans htoken'⟩

/-- After any calls at most one owner and token of a resource validate. A claim that succeeds
has a larger token than every claim on the resource before it, and from then on, whatever is
called, a lease with the earlier token is refused by every method. -/
theorem leases_fenced :
    (∀ (calls : List LeaseCall) (lease other : Lease) (now : Int),
      lease.resourceId = other.resourceId →
      (registryAfter calls).validate lease now = .ok () →
      (registryAfter calls).validate other now = .ok () →
      lease.ownerId = other.ownerId ∧ lease.fencingToken = other.fencingToken) ∧
    (∀ (before between : List LeaseCall) (resourceId ownerId ownerId' : String)
      (ttlSeconds ttlSeconds' now now' : Int) (first second : Lease),
      Claims (registryAfter before) resourceId ownerId ttlSeconds now first →
      Claims (registryAfter (before ++ .claim resourceId ownerId ttlSeconds now :: between))
        resourceId ownerId' ttlSeconds' now' second →
      first.fencingToken < second.fencingToken ∧
      ∀ (calls : List LeaseCall) (held : Lease), held.resourceId = resourceId →
        held.fencingToken = first.fencingToken →
        Refused (registryAfter ((before ++ .claim resourceId ownerId ttlSeconds now :: between) ++
          .claim resourceId ownerId' ttlSeconds' now' :: calls)) held) := by
  constructor
  · intro calls lease other now hresource h hother
    exact validate_unique hresource h hother
  · intro before between resourceId ownerId ownerId' ttlSeconds ttlSeconds' now now' first second
      hfirst hsecond
    have hlt := (past_after hfirst between).lt_claim hsecond
    refine ⟨hlt, fun calls held hresource htoken => refused_of_stale fun instant => ?_⟩
    have hpast := past_after hsecond calls
    subst hresource
    have hstale := @Past.stale held _ _ hpast (by omega) instant
    exact ⟨_, hstale⟩

/-- The first lease is released at 5 and the resource claimed again at 6: a copy of the first one
that says it never expires opens nothing, not even after the second one is renewed. -/
theorem leases_fenced_released :
    Refused (registryAfter [.claim "gpu" "a" 10 0, .release ⟨"gpu", "a", 1, 10⟩ 5,
      .claim "gpu" "b" 10 6, .heartbeat ⟨"gpu", "b", 2, 16⟩ 10 7 7]) ⟨"gpu", "a", 1, 9999⟩ :=
  (leases_fenced.2 [] [.release ⟨"gpu", "a", 1, 10⟩ 5] "gpu" "a" "b" 10 10 0 6 ⟨"gpu", "a", 1, 10⟩
    ⟨"gpu", "b", 2, 16⟩ ⟨_, rfl⟩ ⟨_, rfl⟩).2 [.heartbeat ⟨"gpu", "b", 2, 16⟩ 10 7 7]
    ⟨"gpu", "a", 1, 9999⟩ rfl rfl

end LocalRag.Runtime
