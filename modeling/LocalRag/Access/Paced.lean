import LocalRag.Access.Login

/-!
# The login throttle — what it keeps, and the attempts that overtake it

The block is read in one transaction and set in another, with the password check
between them. Nothing holds an attempt back that read the table before the block
was there: six attempts of one client key that all pass the check are all verified,
the sixth at the moment the fifth failure is recorded (`throttle_outrun`). The row
of `v4_auth_lookup` carries `blocked_until`; `login` never looks at it.

What one client key sees of the system is a `KeyView`: the clock, its row, its
series of failures and how many of its attempts are under way. Every step of the
program is one `KeyStep` for each key (`step_keyStep`), and `KeyInv` is what these
keep: the row says what the series says, at most five failures stand against a key
or are on their way before the first pause, and from then on one attempt is under
way at a time, let in when the pause was over. The condition this needs is on the
check alone: an attempt passes it only when no other of its key is under way, or
when with it the failures on their way stay within five (`Paced`). Under it every
step of every run is throttled (`throttled_of_paced`).
-/

namespace LocalRag.Login

open LocalRag.Core

/-! ## One client key -/

/-- What the system is for one client key. -/
structure KeyView where
  now : Nat
  row : Option ThrottleRow
  series : Series
  underWay : Nat

/-- The failures in a row that count now. -/
def KeyView.failures (k : KeyView) : Nat := k.series.consecutive k.now

/-- The row, unless it is 24 quiet hours old. -/
def KeyView.freshRow (k : KeyView) : Option ThrottleRow := k.row.filter fun r => !r.aged k.now

/-- What one step of the program can do to one key: `entered` and `succeeded` say
which steps let an attempt in and which end one with a session. -/
inductive KeyStep (entered succeeded : Prop) : KeyView → KeyView → Prop where
  | wait (k : KeyView) (later : Nat) (hlater : k.now ≤ later) :
      KeyStep entered succeeded k { k with now := later }
  | purge (k : KeyView) : KeyStep entered succeeded k { k with row := k.freshRow }
  /-- An attempt passes the check: no block of the row lasts longer than now. -/
  | enter (k : KeyView) (hentered : entered)
      (hover : ∀ r b, k.freshRow = some r → r.blockedUntil = some b → b ≤ k.now) :
      KeyStep entered succeeded k { k with row := k.freshRow, underWay := k.underWay + 1 }
  | leave (k : KeyView) (n : Nat) (hn : k.underWay = n + 1) :
      KeyStep entered succeeded k { k with underWay := n }
  | record (k : KeyView) (n : Nat) (hn : k.underWay = n + 1) :
      KeyStep entered succeeded k { k with
        row := some (failedRow k.now k.freshRow)
        series := ⟨k.failures + 1, k.now⟩
        underWay := n }
  | clear (k : KeyView) (n : Nat) (hn : k.underWay = n + 1) (hsucceeded : succeeded) :
      KeyStep entered succeeded k { k with row := none, series := ⟨0, k.now⟩, underWay := n }

/-- What is kept for one key. -/
structure KeyInv (k : KeyView) : Prop where
  failedAt : ∀ r, k.row = some r → r.updatedAt = k.series.failedAt
  count : ∀ r, k.row = some r → r.failureCount = min k.series.failures 100
  blocked : ∀ r, k.row = some r → r.blockedUntil =
    if 5 ≤ k.series.failures then some (k.series.failedAt + pause k.series.failures) else none
  absent : k.row = none → k.failures = 0
  few : k.failures < 5 → k.failures + k.underWay ≤ 5
  served : 5 ≤ k.failures →
    k.underWay = 0 ∨ k.underWay = 1 ∧ k.series.failedAt + pause k.failures ≤ k.now

variable {k k' : KeyView} {entered succeeded : Prop}

variable {n : Nat}

theorem pause_mono {m : Nat} (h : m ≤ n) : pause m ≤ pause n := by
  unfold pause minutes
  omega

theorem failures_le (k : KeyView) : k.failures ≤ k.series.failures := by
  unfold KeyView.failures Series.consecutive
  split <;> omega

/-- A series that counts counts whole. -/
theorem failures_eq (h : 0 < k.failures) : k.failures = k.series.failures := by
  unfold KeyView.failures Series.consecutive at h ⊢
  split
  next hquiet =>
    rw [if_pos hquiet] at h
    omega
  next => rfl

theorem KeyInv.underWay_le (h : KeyInv k) : k.underWay ≤ 5 := by
  by_cases hfew : k.failures < 5
  · have := h.few hfew
    omega
  · have := h.served (by omega)
    omega

variable {r : ThrottleRow}

/-- The row and the series are aged together. -/
theorem KeyInv.aged_iff (h : KeyInv k) (hr : k.row = some r) :
    r.aged k.now = true ↔ k.series.failedAt + day < k.now := by
  unfold ThrottleRow.aged
  rw [h.failedAt r hr]
  exact decide_eq_true_iff

/-- A row that is not aged stands for a series that counts whole. -/
theorem KeyInv.failures_of_fresh (h : KeyInv k) (hr : k.row = some r)
    (hfresh : r.aged k.now = false) : k.failures = k.series.failures := by
  apply if_neg
  intro hquiet
  rw [(h.aged_iff hr).mpr hquiet] at hfresh
  cases hfresh

theorem freshRow_eq_some (hr : k.freshRow = some r) : k.row = some r ∧ r.aged k.now = false := by
  have := Option.filter_eq_some_iff.mp hr
  exact ⟨this.1, by simpa using this.2⟩

theorem KeyInv.freshRow_eq_none (h : KeyInv k) (hnone : k.freshRow = none) : k.failures = 0 := by
  cases hrow : k.row with
  | none => exact h.absent hrow
  | some r =>
    unfold KeyView.freshRow at hnone
    rw [hrow, Option.filter_some] at hnone
    have haged : r.aged k.now = true := by
      by_contra hfresh
      simp [hfresh] at hnone
    exact if_pos ((h.aged_iff hrow).mp haged)

/-- The count in the table is the series, as far as it counts. -/
theorem KeyInv.standing_eq (h : KeyInv k) : standing k.now k.row = min k.failures 100 := by
  cases hrow : k.row with
  | none => rw [h.absent hrow, standing, Nat.zero_min]
  | some r =>
    show (if r.aged k.now then 0 else r.failureCount) = _
    by_cases haged : r.aged k.now = true
    · have hzero : k.failures = 0 := if_pos ((h.aged_iff hrow).mp haged)
      rw [if_pos haged, hzero, Nat.zero_min]
    · rw [if_neg haged, h.count r hrow, h.failures_of_fresh hrow (Bool.eq_false_iff.mpr haged)]

/-! ### What a step keeps -/

theorem keyInv_initial : KeyInv ⟨0, none, ⟨0, 0⟩, 0⟩ where
  failedAt := nofun
  count := nofun
  blocked := nofun
  absent := fun _ => Nat.le_zero.mp (failures_le _)
  few := fun h => by
    show _ + 0 ≤ 5
    omega
  served := fun _ => .inl rfl

/-- With time a series counts as before or no longer. -/
theorem failures_later {later : Nat} (hlater : k.now ≤ later) :
    ({ k with now := later } : KeyView).failures = 0 ∨
      ({ k with now := later } : KeyView).failures = k.failures := by
  unfold KeyView.failures Series.consecutive
  by_cases hquiet : k.series.failedAt + day < later
  · exact .inl (if_pos hquiet)
  · right
    rw [if_neg hquiet, if_neg (by omega)]

theorem keyInv_wait (h : KeyInv k) {later : Nat} (hlater : k.now ≤ later) :
    KeyInv { k with now := later } := by
  have hn := h.underWay_le
  refine ⟨h.failedAt, h.count, h.blocked, ?_, ?_, ?_⟩
  · intro hrow
    have := h.absent hrow
    rcases failures_later hlater with hz | he <;> omega
  · intro hfew
    show _ + k.underWay ≤ 5
    rcases failures_later hlater with hz | he
    · omega
    · rw [he] at hfew ⊢
      exact h.few hfew
  · intro hserved
    rcases failures_later hlater with hz | he
    · omega
    · rw [he] at hserved ⊢
      exact (h.served hserved).imp_right fun hone => ⟨hone.1, Nat.le_trans hone.2 hlater⟩

/-- `DELETE … WHERE updated_at < …` loses nothing: the series has ended too. -/
theorem keyInv_purge (h : KeyInv k) : KeyInv { k with row := k.freshRow } where
  failedAt := fun r hr => h.failedAt r (freshRow_eq_some hr).1
  count := fun r hr => h.count r (freshRow_eq_some hr).1
  blocked := fun r hr => h.blocked r (freshRow_eq_some hr).1
  absent := h.freshRow_eq_none
  few := h.few
  served := h.served

/-- One more attempt is under way: where the condition on the check is needed. -/
theorem keyInv_enter (h : KeyInv k)
    (hpaced : k.underWay = 0 ∨ standing k.now k.row + k.underWay < 5)
    (hover : ∀ r b, k.freshRow = some r → r.blockedUntil = some b → b ≤ k.now) :
    KeyInv { k with row := k.freshRow, underWay := k.underWay + 1 } := by
  have hpurged := keyInv_purge h
  rw [h.standing_eq] at hpaced
  refine ⟨hpurged.failedAt, hpurged.count, hpurged.blocked, hpurged.absent, ?_, ?_⟩
  · intro (hfew : k.failures < 5)
    show k.failures + (k.underWay + 1) ≤ 5
    omega
  · intro (hserved : 5 ≤ k.failures)
    refine .inr ⟨?_, ?_⟩
    · show k.underWay + 1 = 1
      omega
    · -- five failures stand in a row, and its block was found over
      show k.series.failedAt + pause k.failures ≤ k.now
      cases hfresh : k.freshRow with
      | none =>
        have := h.freshRow_eq_none hfresh
        omega
      | some r =>
        have hwhole := failures_eq (k := k) (by omega)
        have hblocked := h.blocked r (freshRow_eq_some hfresh).1
        rw [if_pos (by omega)] at hblocked
        rw [hwhole]
        exact hover r _ hfresh hblocked

/-- An attempt ended that left the row as it was. -/
theorem keyInv_leave (h : KeyInv k) (hn : k.underWay = n + 1) :
    KeyInv { k with underWay := n } := by
  refine ⟨h.failedAt, h.count, h.blocked, h.absent, ?_, ?_⟩
  · intro hfew
    have := h.few hfew
    show k.failures + n ≤ 5
    omega
  · intro hserved
    have := h.served hserved
    show n = 0 ∨ _
    omega

/-- An attempt ended with a success. -/
theorem keyInv_clear (h : KeyInv k) (hn : k.underWay = n + 1) :
    KeyInv { k with row := none, series := ⟨0, k.now⟩, underWay := n } := by
  have hfive := h.underWay_le
  have hzero : ({ k with row := none, series := ⟨0, k.now⟩, underWay := n } : KeyView).failures ≤ 0 :=
    failures_le _
  refine ⟨nofun, nofun, nofun, fun _ => Nat.le_zero.mp hzero, ?_, ?_⟩
  · intro _
    show _ + n ≤ 5
    omega
  · intro hserved
    omega

/-- The row after one more failure says what the series says. -/
theorem KeyInv.failedRow_spec (h : KeyInv k) :
    (failedRow k.now k.freshRow).updatedAt = k.now ∧
      (failedRow k.now k.freshRow).failureCount = min (k.failures + 1) 100 ∧
      (failedRow k.now k.freshRow).blockedUntil =
        if 5 ≤ k.failures + 1 then some (k.now + pause (k.failures + 1)) else none := by
  cases hfresh : k.freshRow with
  | none => simp [failedRow, h.freshRow_eq_none hfresh]
  | some r =>
    obtain ⟨hrow, hnotAged⟩ := freshRow_eq_some hfresh
    have hcount := h.count r hrow
    have hwhole := h.failures_of_fresh hrow hnotAged
    refine ⟨rfl, ?_, ?_⟩
    · show (if r.aged k.now then 1 else min (r.failureCount + 1) 100) = _
      rw [hnotAged, hcount, hwhole, if_neg Bool.false_ne_true]
      omega
    · show (if 5 ≤ (if r.aged k.now then 1 else min (r.failureCount + 1) 100) then _ else _) = _
      rw [hnotAged, hcount, hwhole, if_neg Bool.false_ne_true]
      by_cases hfive : 5 ≤ k.series.failures + 1
      · -- from the hundredth failure on the count stands still, far above 15 minutes
        rw [if_pos (by omega), if_pos hfive]
        unfold pause minutes
        congr 1
        omega
      · rw [if_neg (by omega), if_neg hfive]

theorem keyInv_record (h : KeyInv k) (hn : k.underWay = n + 1) :
    KeyInv { k with
      row := some (failedRow k.now k.freshRow)
      series := ⟨k.failures + 1, k.now⟩
      underWay := n } := by
  obtain ⟨hat, hcount, hblocked⟩ := h.failedRow_spec
  have hwhole : Series.consecutive ⟨k.failures + 1, k.now⟩ k.now = k.failures + 1 :=
    if_neg (show ¬ k.now + day < k.now by omega)
  refine ⟨?_, ?_, ?_, nofun, ?_, ?_⟩
  · intro r hr
    cases hr
    exact hat
  · intro r hr
    cases hr
    exact hcount
  · intro r hr
    cases hr
    exact hblocked
  · intro (hfew : Series.consecutive _ _ < 5)
    show Series.consecutive _ _ + n ≤ 5
    rw [hwhole] at hfew ⊢
    have := h.few (by omega)
    omega
  · intro (hserved : 5 ≤ Series.consecutive _ _)
    rw [hwhole] at hserved
    -- the failure that brings the pause was the last under way
    left
    show n = 0
    by_cases hfour : k.failures < 5
    · have := h.few hfour
      omega
    · have := h.served (by omega)
      omega

theorem keyInv_step (hstep : KeyStep entered succeeded k k')
    (hpaced : entered → k.underWay = 0 ∨ standing k.now k.row + k.underWay < 5)
    (h : KeyInv k) : KeyInv k' := by
  cases hstep with
  | wait later hlater => exact keyInv_wait h hlater
  | purge => exact keyInv_purge h
  | enter hentered hover => exact keyInv_enter h (hpaced hentered) hover
  | leave n hn => exact keyInv_leave h hn
  | record n hn => exact keyInv_record h hn
  | clear n hn => exact keyInv_clear h hn

/-! ### What a step never shortens -/

theorem KeyInv.blockLength_eq (h : KeyInv k) (hr : k.row = some r) :
    r.blockLength = if 5 ≤ k.series.failures then pause k.series.failures else 0 := by
  unfold ThrottleRow.blockLength
  rw [h.blocked r hr, h.failedAt r hr]
  by_cases hfive : 5 ≤ k.series.failures
  · rw [if_pos hfive, if_pos hfive]
    exact Nat.add_sub_cancel_left _ _
  · rw [if_neg hfive, if_neg hfive]

/-- A row that still counts is followed by one with as long a block and as many failures, or
the key succeeded. -/
theorem keyStep_grows (hstep : KeyStep entered succeeded k k') (h : KeyInv k) (h' : KeyInv k')
    (hr : k.row = some r) (hfresh : r.aged k.now = false) :
    succeeded ∨ ∃ r', k'.row = some r' ∧ r.failureCount ≤ r'.failureCount ∧
      r.blockLength ≤ r'.blockLength := by
  have hkept : k.freshRow = some r := by
    unfold KeyView.freshRow
    rw [hr, Option.filter_some, hfresh]
    rfl
  cases hstep with
  | wait later hlater => exact .inr ⟨r, hr, Nat.le_refl _, Nat.le_refl _⟩
  | purge => exact .inr ⟨r, hkept, Nat.le_refl _, Nat.le_refl _⟩
  | enter hentered hover => exact .inr ⟨r, hkept, Nat.le_refl _, Nat.le_refl _⟩
  | leave n hn => exact .inr ⟨r, hr, Nat.le_refl _, Nat.le_refl _⟩
  | clear n hn hsucceeded => exact .inl hsucceeded
  | record n hn =>
    have hwhole := h.failures_of_fresh hr hfresh
    refine .inr ⟨_, rfl, ?_, ?_⟩
    · rw [h.count r hr, h'.count _ rfl]
      show _ ≤ min (k.failures + 1) 100
      omega
    · rw [h.blockLength_eq hr, h'.blockLength_eq rfl]
      show _ ≤ if 5 ≤ k.failures + 1 then pause (k.failures + 1) else 0
      by_cases hfive : 5 ≤ k.series.failures
      · rw [if_pos hfive, if_pos (by omega)]
        exact pause_mono (by omega)
      · rw [if_neg hfive]
        exact Nat.zero_le _

/-! ## The system, key by key -/

/-- What one key sees. -/
def view (s : LoginState) (key : HexText) : KeyView :=
  ⟨s.clock, s.throttles key, s.series key, inFlight s key⟩

/-- The step lets an attempt of the key in. -/
def Entered (s : LoginState) (e : LoginEvent) (key : HexText) : Prop :=
  ∃ i account a, e = .check i account ∧ s.attempts[i]? = some a ∧ a.stage = .begun ∧
    (checkBlock s a).isSome ∧ a.clientKey = key

/-- The step ends an attempt of the key with a session. -/
def Succeeded (s : LoginState) (e : LoginEvent) (key : HexText) : Prop :=
  ∃ i a row, e = .finish i true ∧ s.attempts[i]? = some a ∧ a.stage = .verified row false ∧
    a.clientKey = key

/-- What every attempt keeps: it started in the past, and only a key the database accepts gets
past the check. -/
structure AttemptsInv (s : LoginState) : Prop where
  started : ∀ a ∈ s.attempts, a.now ≤ s.clock
  accepted : ∀ a ∈ s.attempts, a.stage.underWay = true → a.clientKey.wellFormed = true

variable {s : LoginState} {i : Nat} {a : Attempt} {key : HexText}

theorem inFlight_setStage (ha : s.attempts[i]? = some a) (stage : Stage) (key : HexText) :
    inFlight (s.setStage i a stage) key +
        (if (a.clientKey = key && a.stage.underWay) = true then 1 else 0) =
      inFlight s key + (if (a.clientKey = key && stage.underWay) = true then 1 else 0) := by
  obtain ⟨hlt, hget⟩ := List.getElem?_eq_some_iff.mp ha
  have hcounted : (if (a.clientKey = key && a.stage.underWay) = true then 1 else 0) ≤
      inFlight s key := by
    split
    next hpos => exact List.countP_pos_iff.mpr ⟨a, List.mem_of_getElem? ha, hpos⟩
    next => exact Nat.zero_le _
  have hset : inFlight (s.setStage i a stage) key =
      inFlight s key - (if (a.clientKey = key && a.stage.underWay) = true then 1 else 0) +
        (if (a.clientKey = key && stage.underWay) = true then 1 else 0) := by
    unfold inFlight LoginState.setStage
    rw [List.countP_set hlt, hget]
  omega

variable {stage : Stage}

/-- Another key's attempts are not counted, nor is a step within the attempt. -/
theorem inFlight_kept (ha : s.attempts[i]? = some a)
    (h : a.clientKey ≠ key ∨ stage.underWay = a.stage.underWay) :
    inFlight (s.setStage i a stage) key = inFlight s key := by
  have hset := inFlight_setStage ha stage key
  rcases h with hkey | hsame
  · simpa [hkey] using hset
  · rw [hsame] at hset
    omega

theorem inFlight_enter (ha : s.attempts[i]? = some a) (hout : a.stage.underWay = false)
    (hin : stage.underWay = true) :
    inFlight (s.setStage i a stage) a.clientKey = inFlight s a.clientKey + 1 := by
  have hset := inFlight_setStage ha stage a.clientKey
  simpa [hout, hin] using hset

theorem inFlight_leave (ha : s.attempts[i]? = some a) (hin : a.stage.underWay = true) :
    inFlight s a.clientKey = inFlight (s.setStage i a .ended) a.clientKey + 1 := by
  have hset := inFlight_setStage ha .ended a.clientKey
  have hended : Stage.ended.underWay = false := rfl
  simpa [hin, hended] using hset.symm

/-- Nothing changed for the key. -/
theorem KeyStep.idle (k : KeyView) : KeyStep entered succeeded k k :=
  .wait k k.now (Nat.le_refl _)

theorem setStage_keyStep (ha : s.attempts[i]? = some a)
    (h : a.clientKey ≠ key ∨ stage.underWay = a.stage.underWay) :
    KeyStep entered succeeded (view s key) (view (s.setStage i a stage) key) := by
  have hview : view (s.setStage i a stage) key = view s key := by
    show (⟨_, _, _, inFlight (s.setStage i a stage) key⟩ : KeyView) = _
    rw [inFlight_kept ha h]
    rfl
  rw [hview]
  exact KeyStep.idle _

/-- The check let the attempt in: the aged rows are gone, and no block of its key outlasts
the clock. -/
theorem checkBlock_some {throttles : LoginThrottles} (hstarted : a.now ≤ s.clock)
    (h : checkBlock s a = some throttles) :
    a.clientKey.wellFormed = true ∧ throttles = deleteAged s.clock s.throttles ∧
      ∀ r b, (view s a.clientKey).freshRow = some r → r.blockedUntil = some b → b ≤ s.clock := by
  unfold checkBlock v4LoginBlockedUntil at h
  by_cases hwf : a.clientKey.wellFormed = true
  · simp only [hwf, not_true_eq_false, if_false] at h
    split at h
    next => cases h
    next hpasses =>
      refine ⟨hwf, (Option.some.inj h).symm, ?_⟩
      intro r b hr hb
      by_contra hlate
      apply hpasses
      have hrow : deleteAged s.clock s.throttles a.clientKey = some r := hr
      rw [hrow, Option.bind_some, hb, Option.filter_some, if_pos (by simpa using hlate)]
      simp
      omega
  · simp [hwf] at h

theorem check_keyStep (hs : AttemptsInv s) (ha : s.attempts[i]? = some a)
    (hstage : a.stage = .begun) (account : Option AuthAccount) (key : HexText) :
    KeyStep (Entered s (.check i account) key) succeeded (view s key)
      (view (check s i a account) key) := by
  unfold check
  cases hcheck : checkBlock s a with
  | none => exact setStage_keyStep ha (.inr (by rw [hstage]; rfl))
  | some throttles =>
    obtain ⟨_, rfl, hover⟩ := checkBlock_some (hs.started a (List.mem_of_getElem? ha)) hcheck
    by_cases hkey : a.clientKey = key
    · subst hkey
      have hbegun : a.stage.underWay = false := by
        rw [hstage]
        rfl
      have hentered : Entered s (.check i account) a.clientKey :=
        ⟨i, account, a, rfl, ha, hstage, by rw [hcheck]; rfl, rfl⟩
      show KeyStep _ _ _ ⟨_, _, _, inFlight (s.setStage i a (.lookedUp _)) a.clientKey⟩
      rw [inFlight_enter ha hbegun rfl]
      exact KeyStep.enter (view s a.clientKey) hentered hover
    · show KeyStep _ _ _ ⟨_, _, _, inFlight (s.setStage i a _) key⟩
      rw [inFlight_kept ha (.inl hkey)]
      exact KeyStep.purge (view s key)

theorem recordFailure_keyStep (hs : AttemptsInv s) (ha : s.attempts[i]? = some a)
    (hin : a.stage.underWay = true) (key : HexText) :
    KeyStep entered succeeded (view s key) (view (recordFailure s i a) key) := by
  have hwf := hs.accepted a (List.mem_of_getElem? ha) hin
  unfold recordFailure v4RecordLoginFailure
  simp only [hwf, not_true_eq_false, if_false]
  by_cases hkey : a.clientKey = key
  · subst hkey
    show KeyStep _ _ _ ⟨_, if a.clientKey = a.clientKey then _ else _,
      if a.clientKey = a.clientKey then _ else _, _⟩
    rw [if_pos rfl, if_pos rfl]
    exact KeyStep.record (view s a.clientKey) _ (inFlight_leave ha hin)
  · show KeyStep _ _ _ ⟨_, if key = a.clientKey then _ else _,
      if key = a.clientKey then _ else _, inFlight (s.setStage i a _) key⟩
    rw [if_neg (Ne.symm hkey), if_neg (Ne.symm hkey), inFlight_kept ha (.inl hkey)]
    exact KeyStep.purge (view s key)

theorem issueSession_keyStep (hs : AttemptsInv s) {row : AuthLookup}
    (ha : s.attempts[i]? = some a) (hstage : a.stage = .verified row false) (issued : Bool)
    (key : HexText) :
    KeyStep entered (Succeeded s (.finish i issued) key) (view s key)
      (view (issueSession s i a issued) key) := by
  have hin : a.stage.underWay = true := by
    rw [hstage]
    rfl
  have hwf := hs.accepted a (List.mem_of_getElem? ha) hin
  unfold issueSession v4ClearLoginFailures
  by_cases hkey : a.clientKey = key
  · subst hkey
    cases issued with
    | true =>
      have hsucceeded : Succeeded s (.finish i true) a.clientKey :=
        ⟨i, a, row, rfl, ha, hstage, rfl⟩
      show KeyStep _ _ _ ⟨_, if a.clientKey = a.clientKey ∧ a.clientKey.wellFormed = true then _
        else _, if a.clientKey = a.clientKey then _ else _,
        inFlight (s.setStage i a .ended) a.clientKey⟩
      rw [if_pos (And.intro rfl hwf), if_pos (Eq.refl a.clientKey)]
      exact KeyStep.clear (view s a.clientKey) _ (inFlight_leave ha hin)
        hsucceeded
    | false => exact KeyStep.leave (view s a.clientKey) _ (inFlight_leave ha hin)
  · cases issued with
    | true =>
      have hother : ¬ (key = a.clientKey ∧ a.clientKey.wellFormed = true) :=
        fun h => hkey h.1.symm
      show KeyStep _ _ _ ⟨_, if key = a.clientKey ∧ a.clientKey.wellFormed = true then _ else _,
        if key = a.clientKey then _ else _, inFlight (s.setStage i a _) key⟩
      rw [if_neg hother, if_neg (Ne.symm hkey), inFlight_kept ha (.inl hkey)]
      exact KeyStep.idle (view s key)
    | false => exact setStage_keyStep ha (.inl hkey)

/-- An event about an attempt does what that attempt does next, or nothing. -/
theorem onAttempt_ind {P : LoginState → Prop} {next : Attempt → LoginState} (hnone : P s)
    (hsome : ∀ a, s.attempts[i]? = some a → P (next a)) : P (s.onAttempt i next) := by
  unfold LoginState.onAttempt
  cases ha : s.attempts[i]? with
  | none => exact hnone
  | some a => exact hsome a ha

/-- One step of the program is one step of every key. -/
theorem step_keyStep (hs : AttemptsInv s) (e : LoginEvent) (key : HexText) :
    KeyStep (Entered s e key) (Succeeded s e key) (view s key) (view (step s e) key) := by
  have hidle : KeyStep (Entered s e key) (Succeeded s e key) (view s key) (view s key) :=
    KeyStep.idle _
  cases e with
  | tick elapsed => exact KeyStep.wait (view s key) _ (Nat.le_add_right _ _)
  | start clientKey =>
    have hbegun : ([⟨clientKey, s.clock, .begun⟩] : List Attempt).countP
        (fun a => a.clientKey = key && a.stage.underWay) = 0 :=
      List.countP_eq_zero.mpr fun a ha => by
        rw [List.mem_singleton.mp ha]
        simp [Stage.underWay]
    show KeyStep _ _ _ ⟨_, _, _, List.countP _ (s.attempts ++ [_])⟩
    rw [List.countP_append, hbegun]
    exact hidle
  | check i account =>
    apply onAttempt_ind (P := fun s' => KeyStep _ _ (view s key) (view s' key)) hidle
    intro a ha
    split
    next hstage => exact check_keyStep hs ha hstage account key
    next => exact hidle
  | verify i passwordMatches =>
    apply onAttempt_ind (P := fun s' => KeyStep _ _ (view s key) (view s' key)) hidle
    intro a ha
    split
    next row hstage => exact setStage_keyStep ha (.inr (by rw [hstage]; rfl))
    next => exact hidle
  | finish i issued =>
    apply onAttempt_ind (P := fun s' => KeyStep _ _ (view s key) (view s' key)) hidle
    intro a ha
    split
    next row hstage => exact recordFailure_keyStep hs ha (by rw [hstage]; rfl) key
    next row hstage => exact issueSession_keyStep hs ha hstage issued key
    next => exact hidle

theorem attemptsInv_setStage (hs : AttemptsInv s) (ha : s.attempts[i]? = some a)
    (haccepted : stage.underWay = true → a.clientKey.wellFormed = true) :
    AttemptsInv (s.setStage i a stage) := by
  constructor
  · intro b hb
    rcases List.mem_or_eq_of_mem_set hb with hb | rfl
    · exact hs.started b hb
    · exact hs.started a (List.mem_of_getElem? ha)
  · intro b hb hin
    rcases List.mem_or_eq_of_mem_set hb with hb | rfl
    · exact hs.accepted b hb hin
    · exact haccepted hin

theorem attemptsInv_ended (hs : AttemptsInv s) (ha : s.attempts[i]? = some a) :
    AttemptsInv (s.setStage i a .ended) :=
  attemptsInv_setStage hs ha nofun

theorem attemptsInv_step (hs : AttemptsInv s) (e : LoginEvent) : AttemptsInv (step s e) := by
  cases e with
  | tick elapsed =>
    exact ⟨fun b hb => Nat.le_trans (hs.started b hb) (Nat.le_add_right _ _), hs.accepted⟩
  | start clientKey =>
    constructor
    · intro b hb
      rcases List.mem_append.mp hb with hb | hb
      · exact hs.started b hb
      · rw [List.mem_singleton.mp hb]
        exact Nat.le_refl _
    · intro b hb hin
      rcases List.mem_append.mp hb with hb | hb
      · exact hs.accepted b hb hin
      · rw [List.mem_singleton.mp hb] at hin
        cases hin
  | check i account =>
    apply onAttempt_ind (P := AttemptsInv) hs
    intro a ha
    split
    next hstage =>
      unfold check
      cases hcheck : checkBlock s a with
      | none => exact attemptsInv_ended hs ha
      | some throttles =>
        have hwf := (checkBlock_some (hs.started a (List.mem_of_getElem? ha)) hcheck).1
        have hset : AttemptsInv (s.setStage i a
            (.lookedUp (v4AuthLookup throttles s.clock account a.clientKey))) :=
          attemptsInv_setStage hs ha fun _ => hwf
        exact ⟨hset.started, hset.accepted⟩
    next => exact hs
  | verify i passwordMatches =>
    apply onAttempt_ind (P := AttemptsInv) hs
    intro a ha
    split
    next row hstage =>
      refine attemptsInv_setStage hs ha fun _ => ?_
      exact hs.accepted a (List.mem_of_getElem? ha) (by rw [hstage]; rfl)
    next => exact hs
  | finish i issued =>
    apply onAttempt_ind (P := AttemptsInv) hs
    intro a ha
    have hended := attemptsInv_ended hs ha
    split
    next =>
      unfold recordFailure
      split
      next => exact hended
      next => exact ⟨hended.started, hended.accepted⟩
    next =>
      unfold issueSession
      split
      next => exact ⟨hended.started, hended.accepted⟩
      next => exact hended
    next => exact hs

/-! ## Runs -/

/-- What every state of a paced run keeps. -/
structure LoginInv (s : LoginState) : Prop where
  attempts : AttemptsInv s
  keys : ∀ key, KeyInv (view s key)

/-- The check lets an attempt in only when no other of its key is under way, or when
with it the failures that stand and those on their way stay within five. -/
def Paced (s : LoginState) : LoginEvent → Prop
  | .check i _ => ∀ a ∈ s.attempts[i]?, a.stage = .begun → (checkBlock s a).isSome = true →
      inFlight s a.clientKey = 0 ∨ failureCount s a.clientKey + inFlight s a.clientKey < 5
  | _ => True

instance (s : LoginState) : ∀ e, Decidable (Paced s e)
  | .check i _ => inferInstanceAs (Decidable (∀ a ∈ s.attempts[i]?, a.stage = .begun →
      (checkBlock s a).isSome = true →
      inFlight s a.clientKey = 0 ∨ failureCount s a.clientKey + inFlight s a.clientKey < 5))
  | .start _ | .verify _ _ | .finish _ _ | .tick _ => isTrue trivial

theorem loginInv_initial : LoginInv .initial where
  attempts := ⟨nofun, nofun⟩
  keys := fun _ => keyInv_initial

theorem loginInv_step {e : LoginEvent} (hpaced : Paced s e) (h : LoginInv s) :
    LoginInv (step s e) where
  attempts := attemptsInv_step h.attempts e
  keys := by
    intro key
    refine keyInv_step (step_keyStep h.attempts e key) ?_ (h.keys key)
    intro hentered
    obtain ⟨i, account, a, rfl, ha, hstage, hcheck, rfl⟩ := hentered
    exact hpaced a ha hstage hcheck

/-- The failures of a client key in a row, as they stand. -/
def failuresInARow (s : LoginState) (key : HexText) : Nat := (s.series key).consecutive s.clock

/-- The throttle held in this step. -/
structure Throttled (s : LoginState) (e : LoginEvent) : Prop where
  /-- After five failures no password is verified before the pause is over. -/
  waits : ∀ i passwordMatches a row, e = .verify i passwordMatches → s.attempts[i]? = some a →
    a.stage = .lookedUp row → 5 ≤ failuresInARow s a.clientKey →
    (s.series a.clientKey).failedAt + pause (failuresInARow s a.clientKey) ≤ s.clock
  /-- Before the first pause at most five wrong passwords are verified. -/
  atMostFive : ∀ key, failuresInARow (step s e) key < 5 →
    failuresInARow (step s e) key + wrongPending (step s e) key ≤ 5
  /-- Only a success or 24 quiet hours drop a count, and no block is shorter than the last. -/
  grows : ∀ key r, s.throttles key = some r → r.aged s.clock = false → Succeeded s e key ∨
    ∃ r', (step s e).throttles key = some r' ∧ r.failureCount ≤ r'.failureCount ∧
      r.blockLength ≤ r'.blockLength

theorem wrongPending_le (s : LoginState) (key : HexText) : wrongPending s key ≤ inFlight s key := by
  apply List.countP_mono_left
  intro a _ h
  cases hstage : a.stage <;> simp_all [Stage.underWay, Stage.foundWrong]

theorem throttled_step {e : LoginEvent} (hpaced : Paced s e) (h : LoginInv s) : Throttled s e where
  waits := by
    intro i passwordMatches a row _ ha hstage hfive
    have hpos : 0 < inFlight s a.clientKey :=
      List.countP_pos_iff.mpr ⟨a, List.mem_of_getElem? ha, by simp [hstage, Stage.underWay]⟩
    rcases (h.keys a.clientKey).served hfive with hnone | ⟨_, hover⟩
    · exact absurd (show inFlight s a.clientKey = 0 from hnone) (by omega)
    · exact hover
  atMostFive := by
    intro key hfew
    have hkey := ((loginInv_step hpaced h).keys key).few hfew
    have hle := wrongPending_le (step s e) key
    exact Nat.le_trans (Nat.add_le_add_left hle _) hkey
  grows := fun key _ hr hfresh =>
    keyStep_grows (step_keyStep h.attempts e key) (h.keys key)
      ((loginInv_step hpaced h).keys key) hr hfresh

/-- Every step of every paced run is throttled. -/
theorem throttled_of_paced {events : List LoginEvent} (h : Along step Paced .initial events) :
    Along step Throttled .initial events :=
  along_of_along LoginInv (fun _ _ hpaced hinv => throttled_step hpaced hinv)
    (fun _ _ hpaced hinv => loginInv_step hpaced hinv) h loginInv_initial

/-! ### A run that is paced, and one that is not -/

/-- One attempt with a wrong password from its start to its end. -/
def wrongAttempt (key : HexText) (i : Nat) : List LoginEvent :=
  [.start key, .check i none, .verify i false, .finish i false]

/-- Five wrong passwords one after the other, the pause, and a sixth. -/
theorem throttled_of_paced_six :
    Along step Throttled .initial
      ((List.range 5).flatMap (wrongAttempt (.digest 7)) ++
        .tick (minutes 1) :: wrongAttempt (.digest 7) 5) :=
  throttled_of_paced (by decide +kernel)

/-- Six attempts of one key that pass the check together; five of them fail and are
recorded, and the sixth is verified. -/
def overtaking : List LoginEvent :=
  (List.replicate 6 (LoginEvent.start (.digest 7))) ++
    (List.range 6).map (fun i => .check i none) ++
    (List.range 5).flatMap (fun i => [.verify i false, .finish i false])

/-- The fifth failure was recorded at this very moment, and the sixth password is verified. -/
theorem throttle_outrun : ¬ ∀ events, Along step Throttled .initial events := by
  intro h
  have hlast := (along_append.mp (h (overtaking ++ [.verify 5 false]))).2.1
  have hwaits := hlast.waits 5 false ⟨.digest 7, 0, .lookedUp ⟨none, none⟩⟩ ⟨none, none⟩ rfl
    (by decide +kernel) rfl (by decide +kernel)
  revert hwaits
  decide +kernel

end LocalRag.Login
