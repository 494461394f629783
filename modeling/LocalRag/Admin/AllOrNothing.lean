import LocalRag.Admin.Restored

/-!
# Applying a configuration — when it is all or nothing

An application of `Admin.Applying` from a claimed change to its end. `AllOrNothing` is what the
controller promises ("applies only resolved profiles and restores the prior values on any
failure") with what the ledger says about it.

It is kept exactly if `Recoverable` holds, and what breaks it are the reports. A report is sent
in the middle of the work and its failure is handled as a failure of the work, but two reports are
sent where nothing handles it: that of the effective stage, after the `try`, so the new settings
stay and the outer handler reports the change failed; and that of the rolling back, first in the
`except` clause, so nothing is put back.

`apply_spec` says where an application may end, `Raised` how; `application_all_or_nothing` reads
both directions off that.
-/

namespace LocalRag.Admin

open LocalRag.Core

section Ends

variable {fates : Fates} {request : ChangeRequest} {prior desired : Configuration}
  {desiredValues priorValues : Values} {affected : List String} {before : String → Service}

/-- How an application that raised may have left services and tables. -/
inductive Raised (fates : Fates) (request : ChangeRequest) (prior desired : Configuration)
    (desiredValues priorValues : Values) (affected : List String) (w : Controlled) : Prop where
  /-- The two configurations do not differ. -/
  | idle (hempty : affected = []) (hsettled : Settled request prior desired w.db)
    (hsteady : Steady priorValues w.services w.calls)
  /-- The report that draining begins raised. -/
  | early (hdiffer : affected ≠ []) (hnot : ¬ Forward fates desiredValues affected)
    (hdraining : fates.report .draining ≠ .answered) (hsettled : Settled request prior desired w.db)
    (hsteady : Steady priorValues w.services w.calls)
  /-- Everything was applied, and the report of that raised. -/
  | late (hdiffer : affected ≠ []) (hforward : Forward fates desiredValues affected)
    (heffective : fates.report .effective ≠ .answered) (hdrained : Drained w.calls)
    (hserved : ∀ name ∈ affected, ServedBy desiredValues name (w.services name))
  /-- The `except` clause ran from a service that was not validated. -/
  | undone (hdiffer : affected ≠ []) (hnot : ¬ Forward fates desiredValues affected)
    (hdraining : fates.report .draining = .answered) (hdrained : Drained w.calls)
    (hend : NotRestored fates request prior desired priorValues affected w)

/-- How an application that returned left them. -/
structure Applied (fates : Fates) (request : ChangeRequest) (desired : Configuration)
    (desiredValues : Values) (affected : List String) (before : String → Service)
    (w : Controlled) : Prop where
  kept : Kept affected before w.services w.calls
  ended : Ended request desired w.db
  forward : Forward fates desiredValues affected
  effective : fates.report .effective = .answered
  served : ∀ name ∈ affected, ServedBy desiredValues name (w.services name)

/-- Only services, calls and whether the tables are settled matter. -/
theorem Raised.frame {w w' : Controlled}
    (h : Raised fates request prior desired desiredValues priorValues affected w)
    (hservices : w'.services = w.services) (hcalls : w'.calls = w.calls)
    (hdb : Settled request prior desired w.db → Settled request prior desired w'.db) :
    Raised fates request prior desired desiredValues priorValues affected w' := by
  cases h with
  | idle hempty hsettled hsteady =>
    exact .idle hempty (hdb hsettled) (hservices ▸ hcalls ▸ hsteady)
  | early hdiffer hnot hdraining hsettled hsteady =>
    exact .early hdiffer hnot hdraining (hdb hsettled) (hservices ▸ hcalls ▸ hsteady)
  | late hdiffer hforward heffective hdrained hserved =>
    exact .late hdiffer hforward heffective (hcalls ▸ hdrained) (hservices ▸ hserved)
  | undone hdiffer hnot hdraining hdrained hend =>
    refine .undone hdiffer hnot hdraining (hcalls ▸ hdrained) ?_
    rcases hend with ⟨hrolling, hbroken⟩ | huncovered | ⟨hrolling, hcovered, hsettled, hserved⟩
    · exact Or.inl ⟨hrolling, hservices ▸ hbroken⟩
    · exact Or.inr (Or.inl huncovered)
    · exact Or.inr (Or.inr ⟨hrolling, hcovered, hdb hsettled, hservices ▸ hserved⟩)

/-- From resolved values on. -/
theorem applyAffected_spec (hbefore : ∀ name, (before name).validated = false)
    (hruns : RunsValues priorValues before) :
    Spec (fun w => Underway request prior desired w.db ∧ Untouched before w)
      (applyAffected fates request desiredValues priorValues affected)
      (fun _ => Applied fates request desired desiredValues affected before)
      (fun _ w => Kept affected before w.services w.calls ∧
        Raised fates request prior desired desiredValues priorValues affected w) := by
  have hsteady : ∀ {w}, Untouched before w → Steady priorValues w.services w.calls := by
    intro w hw
    refine ⟨?_, ?_⟩
    · rintro ⟨name, hname⟩
      rw [hw.calls] at hname
      exact absurd hname List.not_mem_nil
    · rw [hw.services]
      exact hruns
  unfold applyAffected
  refine Spec.bind (M := fun _ w => (Underway request prior desired w.db ∧ Untouched before w) ∧
    affected ≠ []) (Spec.when (fun hempty => Spec.throw fun w hw =>
      ⟨hw.2.kept, .idle hempty (Or.inl hw.1) (hsteady hw.2)⟩) fun hne w hw => ⟨hw, hne⟩)
    fun _ => Spec.assume fun hne => ?_
  refine Spec.bind (M := fun _ w => Going request prior desired affected before True
    (ServedBy desiredValues) w ∧ Forward fates desiredValues affected)
    (Spec.tryCatch (forward_spec hne hbefore) fun e => ?_)
    fun _ => Spec.assume fun hforward => ?_
  · refine Spec.bind (M := fun _ w => Kept affected before w.services w.calls ∧
      Raised fates request prior desired desiredValues priorValues affected w)
      (Spec.choose ?_) fun _ => Spec.throw fun w hw => hw
    rintro w ⟨⟨hdraining, hunderway, huntouched⟩ | ⟨hdraining, hbroken⟩, hnot⟩
    · exact ⟨_, ⟨hunderway, huntouched.kept, hsteady huntouched⟩, rollBack_steady.conseq
        (fun w hw => hw)
        (fun _ w hw => ⟨hw.2.1, .early hne hnot hdraining hw.1 hw.2.2⟩)
        fun _ w hw => ⟨hw.2.1, .early hne hnot hdraining hw.1 hw.2.2⟩⟩
    · exact ⟨_, hbroken, rollBack_broken.conseq (fun w hw => hw)
        (fun _ w hw => ⟨hw.1.1, .undone hne hnot hdraining hw.1.2 hw.2⟩)
        fun _ w hw => ⟨hw.1.1, .undone hne hnot hdraining hw.1.2 hw.2⟩⟩
  · refine (effective_spec prior fun services calls => Kept affected before services calls ∧
      Drained calls ∧ ∀ name ∈ affected, ServedBy desiredValues name (services name)).conseq
      (fun w hw => ⟨hw.underway, hw.kept, hw.drained trivial, hw.each⟩) ?_ ?_
    · rintro - w ⟨⟨hended, hkept, -, hserved⟩, hanswered⟩
      exact ⟨hkept, hended, hforward, hanswered, hserved⟩
    · rintro - w ⟨⟨hkept, hdrained, hserved⟩, hnot⟩
      exact ⟨hkept, .late hne hforward hnot hdrained hserved⟩

/-! ## The outer handler -/

theorem applyConfiguration_spec {resolver : SignedProfileResolver}
    (hdesired : resolver.resolve desired = .ok desiredValues)
    (hprior : resolver.resolve prior = .ok priorValues)
    (hbefore : ∀ name, (before name).validated = false) (hruns : RunsValues priorValues before) :
    Spec (fun w => Underway request prior desired w.db ∧ Untouched before w)
      (applyConfiguration fates request resolver desired prior)
      (fun _ => Applied fates request desired desiredValues
        (affectedServices desiredValues priorValues) before)
      (fun _ w => Kept (affectedServices desiredValues priorValues) before w.services w.calls ∧
        Raised fates request prior desired desiredValues priorValues
          (affectedServices desiredValues priorValues) w) := by
  unfold applyConfiguration
  rw [hdesired, hprior]
  -- the report of the preflight is no request
  refine Spec.bind (M := fun _ w => Underway request prior desired w.db ∧ Untouched before w)
    (Spec.bind (M := fun _ w => Underway request prior desired w.db ∧ Untouched before w)
      (Spec.pure fun w hw => hw) fun _ => Spec.update fun w hw =>
        ⟨hw.1, hw.2.services, hw.2.calls⟩) fun _ => ?_
  exact ⟨fun w hw => (applyAffected_spec hbefore hruns).exits w hw⟩

/-- The report of the outer handler returns, and leaves settled tables settled. -/
theorem reportFailed_leaves (fates : Fates) (request : ChangeRequest)
    (prior desired : Configuration) (w : Controlled) : ∃ w', reportFailed fates request w = (.ok (), w') ∧
    w'.services = w.services ∧ w'.calls = w.calls ∧
    (Settled request prior desired w.db → Settled request prior desired w'.db) := by
  unfold reportFailed
  by_cases hlast : w.lastStage = .rolledBack
  · rw [if_pos hlast]
    exact ⟨w, rfl, rfl, rfl, id⟩
  · rw [if_neg hlast]
    obtain ⟨db, hpost, hdb⟩ := post_leaves (fates.report .failed)
      (finish request "failed" (some "rollback_failed")) w
    have hsettled : Settled request prior desired w.db → Settled request prior desired db := by
      intro h
      rcases hdb with rfl | hfinish
      · exact h
      · exact settled_finish h (show controllerResult "failed" = some (.failed, .failed) by decide)
          rfl (by decide) (by decide) hfinish
    show ∃ w', Gen.handle (Gen.andThen (post (fates.report .failed)
      (finish request "failed" (some "rollback_failed"))) fun _ => Gen.update fun w =>
        { w with lastStage := .failed }) (fun _ => pure ()) w = (.ok (), w') ∧ _
    unfold Gen.handle Gen.andThen
    cases hres : post (fates.report .failed) (finish request "failed" (some "rollback_failed")) w with
    | mk res w₁ =>
      obtain rfl : w₁ = { w with db := db } := (congrArg Prod.snd hres).symm.trans hpost
      cases res with
      | ok _ => exact ⟨_, rfl, rfl, rfl, hsettled⟩
      | error _ => exact ⟨_, rfl, rfl, rfl, hsettled⟩

/-- The outer handler raises again, and what there was to say of the end still holds. -/
theorem handler_spec (e : ApplyError) {Q : Unit → Controlled → Prop} :
    Spec (fun w => Kept affected before w.services w.calls ∧
        Raised fates request prior desired desiredValues priorValues affected w)
      (reportFailed fates request >>= fun _ => throw e : Applies Unit) Q
      (fun _ w => Kept affected before w.services w.calls ∧
        Raised fates request prior desired desiredValues priorValues affected w) := by
  refine ⟨fun w hw => ?_⟩
  obtain ⟨w', hreport, hservices, hcalls, hdb⟩ := reportFailed_leaves fates request
    prior desired w
  show Exits _ _ (Gen.andThen (reportFailed fates request) _ w)
  unfold Gen.andThen
  rw [hreport]
  exact ⟨hservices ▸ hcalls ▸ hw.1, hw.2.frame hservices hcalls hdb⟩

end Ends

/-! ## All or nothing -/

/-- The services run the configuration that the ledger holds effective. -/
def Truthful (resolver : SignedProfileResolver) (w : Controlled) : Prop :=
  ∃ r values, effectiveRevision w.db = .ok r ∧ resolver.resolve r.configuration = .ok values ∧
    RunsValues values w.services

/-- What an application from `w` promises of its end. -/
structure AllOrNothing (resolver : SignedProfileResolver) (request : ChangeRequest)
    (desiredValues priorValues : Values) (w : Controlled)
    (out : Except ApplyError Unit × Controlled) : Prop where
  applied : out.1 = .ok () → ∀ name ∈ affectedServices desiredValues priorValues,
    ServedBy desiredValues name (out.2.services name)
  restored : out.1 ≠ .ok () → Drained out.2.calls →
    ∀ name ∈ affectedServices desiredValues priorValues,
      ServedBy priorValues name (out.2.services name)
  untouched : Kept (affectedServices desiredValues priorValues) w.services out.2.services
    out.2.calls
  /-- Once a finish is recorded. -/
  truthful : (∃ c ∈ out.2.db.changes, c.id = request.changeId ∧ c.state.isActive = false) →
    Truthful resolver out.2

/-- The application gets to the services: the claim is answered with configurations that parse and
differ. -/
structure Begins (fates : Fates) (prior desired : Configuration) (affected : List String) : Prop where
  claimed : fates.claim = .answered
  parsed : ∃ pair, parseBoth prior desired = .ok pair
  differ : affected ≠ []

/-- No report fails where nothing handles it: that of the effective stage after everything else
went through, and that of the rolling back once draining began; and what is put back is there. -/
structure Recoverable (fates : Fates) (desiredValues priorValues : Values)
    (affected : List String) : Prop where
  effective : Forward fates desiredValues affected → fates.report .effective = .answered
  rollingBack : ¬ Forward fates desiredValues affected → fates.report .draining = .answered →
    fates.report .rollingBack = .answered ∧ Covered priorValues affected

section Ledger

variable {fates : Fates} {request : ChangeRequest} {prior desired configuration : Configuration}
  {desiredValues priorValues : Values} {resolver : SignedProfileResolver} {w : Controlled}

theorem truthful_of {values : Values} (heffective : EffectiveIs configuration w.db)
    (hresolve : resolver.resolve configuration = .ok values)
    (hruns : RunsValues values w.services) : Truthful resolver w := by
  obtain ⟨r, hr, rfl⟩ := heffective
  exact ⟨r, values, hr, hresolve, hruns⟩

theorem Settled.effective {db : ConfigurationDb} (h : Settled request prior desired db) :
    EffectiveIs prior db := by
  rcases h with hunderway | hended
  · exact hunderway.effective
  · exact hended.effective

/-- A claim writes no revision. -/
theorem claim_effective {db db' : ConfigurationDb}
    (h : claimConfiguration db request = .ok (db', prior, desired)) :
    effectiveRevision db' = effectiveRevision db := by
  unfold claimConfiguration at h
  split at h
  · exact absurd h (by simp)
  next db₁ hclaim =>
    split at h
    next p d hone =>
      obtain ⟨rfl, -⟩ := Prod.mk.inj (Except.ok.inj h)
      rw [updateChange_ok hclaim]
      rfl
    · exact absurd h (by simp)

/-- Where the affected services are served and the others run what they ran, all run. -/
theorem runs_desired {affected : List String} {before : String → Service}
    (haffected : affected = affectedServices desiredValues priorValues)
    (hkept : Kept affected before w.services w.calls) (hruns : RunsValues priorValues before)
    (hserved : ∀ name ∈ affected, ServedBy desiredValues name (w.services name)) :
    RunsValues desiredValues w.services := by
  intro name settings hlookup
  by_cases hin : name ∈ affected
  · obtain ⟨settings', hlookup', hserves⟩ := hserved name hin
    rw [Option.some.inj (hlookup.symm.trans hlookup')]
    exact hserves.runs
  · obtain ⟨settings', hprior, hsame⟩ := same_of_not_affected (haffected ▸ hin) hlookup
    obtain ⟨r, hrunning, hr⟩ := hruns name settings' hprior
    rw [(hkept name hin).1]
    refine ⟨r, hrunning, sameItems_iff.mpr fun k => ?_⟩
    exact (sameItems_iff.mp hr k).trans (sameItems_iff.mp hsame k).symm

theorem runs_prior {affected : List String} {before : String → Service}
    (hkept : Kept affected before w.services w.calls) (hruns : RunsValues priorValues before)
    (hserved : ∀ name ∈ affected, ServedBy priorValues name (w.services name)) :
    RunsValues priorValues w.services := by
  intro name settings hlookup
  by_cases hin : name ∈ affected
  · obtain ⟨settings', hlookup', hserves⟩ := hserved name hin
    rw [Option.some.inj (hlookup.symm.trans hlookup')]
    exact hserves.runs
  · rw [(hkept name hin).1]
    exact hruns name settings hlookup

end Ledger

section Application

variable {fates : Fates} {request : ChangeRequest} {prior desired : Configuration}
  {desiredValues priorValues : Values} {resolver : SignedProfileResolver} {w : Controlled}
  {db : ConfigurationDb}

/-- Parsing returns what it was given. -/
theorem parseBoth_ok {pair : Configuration × Configuration}
    (h : parseBoth prior desired = .ok pair) : pair = (prior, desired) := by
  have hparse : ∀ {c c' : Configuration}, parseConfiguration c = .ok c' → c' = c := by
    intro c c' hc
    unfold parseConfiguration at hc
    obtain ⟨-, hc⟩ := ite_error_eq_ok.mp hc
    obtain ⟨-, hc⟩ := ite_error_eq_ok.mp hc
    obtain ⟨-, hc⟩ := ite_error_eq_ok.mp hc
    exact (Except.ok.inj hc).symm
  unfold parseBoth at h
  obtain ⟨p, hp, h⟩ := bind_eq_ok.mp h
  obtain ⟨d, hd, h⟩ := bind_eq_ok.mp h
  rw [← hparse hp, ← hparse hd]
  exact (Except.ok.inj h).symm

/-- How the claim ends: with the two configurations, or with nothing done but the claim itself. -/
theorem claim_cases (hclaim : claimConfiguration w.db request = .ok (db, prior, desired)) :
    (fates.claim = .answered ∧ (∃ pair, parseBoth prior desired = .ok pair) ∧
      claim fates.claim request w = (.ok (prior, desired), { w with db := db })) ∨
    (¬ (fates.claim = .answered ∧ ∃ pair, parseBoth prior desired = .ok pair) ∧
      ∃ e db', claim fates.claim request w = (.error e, { w with db := db' }) ∧
        effectiveRevision db' = effectiveRevision w.db) := by
  have hsame := claim_effective hclaim
  unfold claim
  rw [hclaim]
  cases hfate : fates.claim with
  | lost => exact Or.inr ⟨by simp, .request, db, rfl, hsame⟩
  | unsent => exact Or.inr ⟨by simp, .request, w.db, rfl, rfl⟩
  | answered =>
    cases hparse : parseBoth prior desired with
    | error e =>
      refine Or.inr ⟨by simp, e, db, ?_, hsame⟩
      show (parseBoth prior desired, _) = _
      rw [hparse]
    | ok pair =>
      refine Or.inl ⟨rfl, ⟨pair, rfl⟩, ?_⟩
      show (parseBoth prior desired, _) = _
      rw [hparse, parseBoth_ok hparse]

/-- Where an application ends once its change is claimed. -/
theorem personalApply_exits (hclaim : claimConfiguration w.db request = .ok (db, prior, desired))
    (hreached : Reached w.db) (hcalls : w.calls = [])
    (hdesired : resolver.resolve desired = .ok desiredValues)
    (hprior : resolver.resolve prior = .ok priorValues)
    (hbefore : ∀ name, (w.services name).validated = false)
    (hruns : RunsValues priorValues w.services)
    (hclaimed : claim fates.claim request w = (.ok (prior, desired), { w with db := db })) :
    Exits (fun _ => Applied fates request desired desiredValues
        (affectedServices desiredValues priorValues) w.services)
      (fun _ w' => Kept (affectedServices desiredValues priorValues) w.services w'.services
        w'.calls ∧ Raised fates request prior desired desiredValues priorValues
          (affectedServices desiredValues priorValues) w')
      (personalApply fates request resolver w) := by
  have hrun : personalApply fates request resolver w =
      tryCatch (applyConfiguration fates request resolver desired prior)
        (fun e => reportFailed fates request >>= fun _ => throw e)
        { w with db := db, lastStage := .preflight } := by
    show Gen.andThen (claim fates.claim request) _ w = _
    unfold Gen.andThen
    rw [hclaimed]
    rfl
  rw [hrun]
  exact (Spec.tryCatch (applyConfiguration_spec hdesired hprior hbefore hruns)
    fun e => handler_spec e).exits _ ⟨claim_underway hreached hclaim, rfl, hcalls⟩

/-- Where an application raised that began, it kept its promises exactly if it was recoverable. -/
theorem raised_iff {affected : List String}
    (haffected : affected = affectedServices desiredValues priorValues)
    (hprior : resolver.resolve prior = .ok priorValues)
    (hruns : RunsValues priorValues w.services) {w' : Controlled} {e : ApplyError}
    (hkept : Kept affected w.services w'.services w'.calls)
    (hraised : Raised fates request prior desired desiredValues priorValues affected w') :
    AllOrNothing resolver request desiredValues priorValues w (.error e, w') ↔
      (affected ≠ [] → Recoverable fates desiredValues priorValues affected) := by
  subst haffected
  have hends : (Drained w'.calls → ∀ name ∈ affectedServices desiredValues priorValues,
        ServedBy priorValues name (w'.services name)) → Truthful resolver w' →
      AllOrNothing resolver request desiredValues priorValues w (.error e, w') :=
    fun hrestored htruthful => ⟨fun h => absurd h (by simp), fun _ => hrestored, hkept,
      fun _ => htruthful⟩
  cases hraised with
  | idle hempty hsettled hsteady =>
    refine ⟨fun _ hdiffer => absurd hempty hdiffer, fun _ => ?_⟩
    exact hends (fun h => absurd h hsteady.undrained)
      (truthful_of hsettled.effective hprior hsteady.runs)
  | early hdiffer hnot hdraining hsettled hsteady =>
    refine ⟨fun _ _ => ⟨fun h => absurd h hnot, fun _ h => absurd h hdraining⟩, fun _ => ?_⟩
    exact hends (fun h => absurd h hsteady.undrained)
      (truthful_of hsettled.effective hprior hsteady.runs)
  | late hdiffer hforward heffective hdrained hserved =>
    refine ⟨fun h _ => ?_, fun h => absurd ((h hdiffer).effective hforward) heffective⟩
    -- an affected service would serve both settings, so it would not be affected
    obtain ⟨name, hname⟩ := List.exists_mem_of_ne_nil _ hdiffer
    obtain ⟨settings, hlookup, ⟨r, hrunning, hsame⟩, -, -⟩ := hserved name hname
    obtain ⟨settings', hlookup', ⟨r', hrunning', hsame'⟩, -, -⟩ :=
      h.restored (by simp) hdrained name hname
    have hboth : sameEntry (desiredValues.lookup name) (priorValues.lookup name) = true := by
      rw [hlookup, hlookup']
      obtain rfl := Option.some.inj (hrunning.symm.trans hrunning')
      exact sameItems_iff.mpr fun k =>
        (sameItems_iff.mp hsame k).symm.trans (sameItems_iff.mp hsame' k)
    rw [mem_affectedServices, hboth] at hname
    exact absurd hname (by simp)
  | undone hdiffer hnot hdraining hdrained hend =>
    constructor
    · intro h _
      have hserved := h.restored (by simp) hdrained
      refine ⟨fun hforward => absurd hforward hnot, fun _ _ => ?_⟩
      rcases hend with ⟨-, name, hname, hfalse⟩ | huncovered | ⟨hrolling, hcovered, -, -⟩
      · obtain ⟨_, _, hserves⟩ := hserved name hname
        rw [hserves.validated] at hfalse
        exact absurd hfalse (by simp)
      · refine absurd (fun name hname => ?_) huncovered
        obtain ⟨settings, hlookup, -⟩ := hserved name hname
        exact ⟨settings, hlookup⟩
      · exact ⟨hrolling, hcovered⟩
    · intro h
      obtain ⟨hrolling, hcovered⟩ := (h hdiffer).rollingBack hnot hdraining
      rcases hend with ⟨hlost, -⟩ | huncovered | ⟨-, -, hsettled, hserved⟩
      · exact absurd hrolling hlost
      · exact absurd hcovered huncovered
      · exact hends (fun _ => hserved) (truthful_of hsettled.effective hprior
          (runs_prior hkept hruns hserved))

end Application

/-- For every ledger that calls can reach, every change that can be claimed in it, every pair of
configurations that resolve, and every way in which the calls of the forward phase and the requests
to the API may end: an application is all or nothing, and the ledger tells the truth, exactly if it
does not get to the services or is recoverable. -/
theorem application_all_or_nothing (fates : Fates) (request : ChangeRequest)
    (resolver : SignedProfileResolver) (w : Controlled) {prior desired : Configuration}
    {desiredValues priorValues : Values} {db : ConfigurationDb} (hreached : Reached w.db)
    (hclaim : claimConfiguration w.db request = .ok (db, prior, desired))
    (hdesired : resolver.resolve desired = .ok desiredValues)
    (hprior : resolver.resolve prior = .ok priorValues) (hcalls : w.calls = [])
    (hbefore : ∀ name, (w.services name).validated = false) (htruthful : Truthful resolver w) :
    AllOrNothing resolver request desiredValues priorValues w
        (personalApply fates request resolver w) ↔
      (Begins fates prior desired (affectedServices desiredValues priorValues) →
        Recoverable fates desiredValues priorValues
          (affectedServices desiredValues priorValues)) := by
  -- the prior configuration is the one that runs
  have heffective := claim_effective hclaim
  obtain ⟨r, values, hr, hresolve, hruns⟩ := htruthful
  have hsame : EffectiveIs prior w.db := by
    obtain ⟨r', hr', hconfiguration⟩ := (claim_underway hreached hclaim).effective
    exact ⟨r', heffective ▸ hr', hconfiguration⟩
  obtain rfl : values = priorValues := by
    obtain ⟨r', hr', rfl⟩ := hsame
    rw [Except.ok.inj (hr.symm.trans hr')] at hresolve
    exact Except.ok.inj (hresolve.symm.trans hprior)
  rcases claim_cases hclaim with ⟨hclaimed, hparsed, hpair⟩ | ⟨hnot, e, db', herror, hdb'⟩
  · have hexit := personalApply_exits hclaim hreached hcalls hdesired hprior hbefore hruns hpair
    cases hout : personalApply fates request resolver w with
    | mk res w' =>
      rw [hout] at hexit
      cases res with
      | ok u =>
        have happlied : Applied _ _ _ _ _ _ _ := hexit
        refine ⟨fun _ _ => ⟨fun _ => happlied.effective, fun h => absurd happlied.forward h⟩,
          fun _ => ⟨fun _ => happlied.served, fun h => absurd rfl h, happlied.kept, fun _ => ?_⟩⟩
        exact truthful_of happlied.ended.effective hdesired
          (runs_desired rfl happlied.kept hruns happlied.served)
      | error e =>
        obtain ⟨hkept, hraised⟩ := hexit
        rw [raised_iff rfl hprior hruns hkept hraised]
        exact ⟨fun h hbegins => h hbegins.differ, fun h hdiffer => h ⟨hclaimed, hparsed, hdiffer⟩⟩
  · refine ⟨fun _ hbegins => absurd ⟨hbegins.claimed, hbegins.parsed⟩ hnot, fun _ => ?_⟩
    have hout : personalApply fates request resolver w = (.error e, { w with db := db' }) := by
      show Gen.andThen (claim fates.claim request) _ w = _
      unfold Gen.andThen
      rw [herror]
    rw [hout]
    refine ⟨fun h => absurd h (by simp), fun _ h => ?_, Untouched.kept ⟨rfl, hcalls⟩, fun _ => ?_⟩
    · obtain ⟨name, hname⟩ := h
      have hnone : (RuntimeCall.drain, name) ∈ w.calls := hname
      rw [hcalls] at hnone
      exact absurd hnone List.not_mem_nil
    · exact ⟨r, values, hdb'.trans hr, hresolve, hruns⟩

/-! ## A sample -/

/-- The profiles and the preset of the first configuration. -/
def sampleResolver : SignedProfileResolver where
  profiles := [
    ⟨"generation.qwen3-8b.ollama.windows-x64", "inference", [("GENERATION_MODEL", "qwen3:8b")]⟩,
    ⟨"reranking.bge-v2-m3.cpu.windows-x64", "inference", [("RERANKER_MODEL", "bge-v2-m3")]⟩,
    ⟨"ocr.paddleocr-vl-1.6.cpu.windows-x64", "ocr", [("OCR_DEVICE", "cpu")]⟩]
  presets := [("balanced", [("OCR_CPU_THREADS", "8")])]

def sampleDesired : Configuration := { baselineRevision.configuration with ocrMode := "explicit" }

def samplePriorValues : Values := [
  ("inference", [("GENERATION_MODEL", "qwen3:8b"), ("RERANKER_MODEL", "bge-v2-m3")]),
  ("ocr", [("OCR_DEVICE", "cpu"), ("OCR_CPU_THREADS", "8"), ("OCR_SELECTION_MODE", "auto")])]

def sampleDesiredValues : Values := [
  ("inference", [("GENERATION_MODEL", "qwen3:8b"), ("RERANKER_MODEL", "bge-v2-m3")]),
  ("ocr", [("OCR_DEVICE", "cpu"), ("OCR_CPU_THREADS", "8"), ("OCR_SELECTION_MODE", "explicit")])]

def sampleRequest : ChangeRequest := ⟨7, .digest 3⟩

/-- An administrator previews the desired configuration, proves their password and applies it. -/
def sampleLedger : Ledger := ledgerAfter (fun _ => 0) [
  .preview (.ok (1, 1)) 5 .baseline sampleDesired 0,
  .grant (.ok (1, 1)) 5 "apply_runtime_configuration" (.digest 0) (.digest 1) 0,
  .apply (.ok (1, 1)) 7 5 (.digest 0) (.digest 1) (.digest 3) 0]

/-- The services run the first configuration. -/
def sampleControlled : Controlled where
  services name := ⟨(samplePriorValues.lookup name).getD [],
    some ((samplePriorValues.lookup name).getD []), false, false⟩
  calls := []
  db := sampleLedger.db
  lastStage := .preflight

def sampleClaimedDb : ConfigurationDb :=
  match claimConfiguration sampleLedger.db sampleRequest with
  | .ok (db, _) => db
  | .error _ => sampleLedger.db

/-- Everything goes well but the restart of the OCR service. -/
def restartFails : Fates where
  claim := .answered
  report _ := .answered
  call call _ := if call = .restart then .raises ⟨[], none, false, false⟩ else .returns

/-- Everything goes well but the last report, which does not arrive. -/
def lastReportFails : Fates where
  claim := .answered
  report stage := if stage = .effective then .unsent else .answered
  call _ _ := .returns

theorem sample_truthful : Truthful sampleResolver sampleControlled := by
  refine ⟨baselineRevision, samplePriorValues, by decide +kernel, by decide +kernel, ?_⟩
  intro name settings hlookup
  refine ⟨settings, ?_, sameItems_iff.mpr fun _ => rfl⟩
  show some ((samplePriorValues.lookup name).getD []) = some settings
  rw [hlookup]
  rfl

theorem sample_claim : claimConfiguration sampleControlled.db sampleRequest =
    .ok (sampleClaimedDb, baselineRevision.configuration, sampleDesired) := by
  decide +kernel

theorem sample_desired : sampleResolver.resolve sampleDesired = .ok sampleDesiredValues := by
  decide +kernel

theorem sample_prior :
    sampleResolver.resolve baselineRevision.configuration = .ok samplePriorValues := by
  decide +kernel

theorem sample_affected : affectedServices sampleDesiredValues samplePriorValues = ["ocr"] := by
  decide +kernel

/-- The restart raises, and the prior settings are put back. -/
theorem application_restored : AllOrNothing sampleResolver sampleRequest sampleDesiredValues
    samplePriorValues sampleControlled
    (personalApply restartFails sampleRequest sampleResolver sampleControlled) := by
  refine (application_all_or_nothing restartFails sampleRequest sampleResolver sampleControlled
    ⟨_, _, ledgerAfter_inv (fun _ => 0) _⟩ sample_claim sample_desired sample_prior rfl
    (fun _ => rfl) sample_truthful).mpr fun _ => ⟨fun _ => rfl, fun _ _ => ⟨rfl, ?_⟩⟩
  intro name hname
  rw [sample_affected, List.mem_singleton] at hname
  rw [hname]
  exact ⟨_, rfl⟩

/-- The configuration is applied and the report of that does not arrive: the application raises,
the new settings stay, and the ledger holds the change failed. -/
theorem applied_but_failed : ¬ AllOrNothing sampleResolver sampleRequest sampleDesiredValues
    samplePriorValues sampleControlled
    (personalApply lastReportFails sampleRequest sampleResolver sampleControlled) := by
  intro h
  have hend : (personalApply lastReportFails sampleRequest sampleResolver
        sampleControlled).1 = .error .request ∧
      (RuntimeCall.drain, "ocr") ∈ (personalApply lastReportFails sampleRequest sampleResolver
        sampleControlled).2.calls ∧
      (personalApply lastReportFails sampleRequest sampleResolver
        sampleControlled).2.services "ocr" = ⟨(sampleDesiredValues.lookup "ocr").getD [],
          sampleDesiredValues.lookup "ocr", true, true⟩ := by
    decide +kernel
  obtain ⟨hraised, hdrained, hocr⟩ := hend
  obtain ⟨settings, hlookup, ⟨r, hrunning, hsame⟩, -, -⟩ :=
    h.restored (by rw [hraised]; simp) ⟨"ocr", hdrained⟩ "ocr" (by rw [sample_affected]; simp)
  rw [hocr] at hrunning
  -- the settings that run are not those that were to be put back
  obtain rfl : [("OCR_DEVICE", "cpu"), ("OCR_CPU_THREADS", "8"),
    ("OCR_SELECTION_MODE", "explicit")] = r := Option.some.inj hrunning
  obtain rfl : [("OCR_DEVICE", "cpu"), ("OCR_CPU_THREADS", "8"),
    ("OCR_SELECTION_MODE", "auto")] = settings := Option.some.inj hlookup
  exact absurd hsame (by decide)

end LocalRag.Admin
