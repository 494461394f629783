import LocalRag.Admin.Affected

/-!
# What the `except` clause leaves — services put back, a change settled

The rules of `Admin.Affected` carried through `rollBack`, from the two states that `forward` may
stop in. Where nothing was drained yet every service still runs its prior settings, and putting
some of them back keeps that, whether it gets to the end or not (`rollBack_steady`). Later it has
to get to the end: then every affected service serves its prior settings, and `NotRestored` names
the two ways in which it does not (`rollBack_broken`).

The ledger is `Settled` all along: a rollback never makes the desired revision effective.
-/

namespace LocalRag.Admin

open LocalRag.Core

section Rollback

variable {fates : Fates} {request : ChangeRequest} {prior desired : Configuration}
  {desiredValues priorValues : Values} {affected : List String} {before : String → Service}

/-- The change is underway, or it is finished with the prior configuration effective. -/
def Settled (request : ChangeRequest) (prior desired : Configuration) (db : ConfigurationDb) :
    Prop :=
  Underway request prior desired db ∨ Ended request prior db

/-- Every affected service has prior settings. -/
def Covered (priorValues : Values) (affected : List String) : Prop :=
  ∀ name ∈ affected, ∃ settings, priorValues.lookup name = some settings

/-! ## Requests and the tables -/

/-- A request that is performed writes what its call writes; otherwise nothing. -/
theorem post_leaves (fate : ReportFate)
    (call : ConfigurationDb → Except SqlError ConfigurationDb) (w : Controlled) :
    ∃ db, (post fate call w).2 = { w with db := db } ∧ (db = w.db ∨ call w.db = .ok db) := by
  unfold post
  cases hcall : call w.db with
  | error e =>
    cases fate with
    | answered => exact ⟨w.db, rfl, Or.inl rfl⟩
    | lost => exact ⟨w.db, rfl, Or.inl rfl⟩
    | unsent => exact ⟨w.db, rfl, Or.inl rfl⟩
  | ok db =>
    cases fate with
    | answered => exact ⟨db, rfl, Or.inr rfl⟩
    | lost => exact ⟨db, rfl, Or.inr rfl⟩
    | unsent => exact ⟨w.db, rfl, Or.inl rfl⟩

/-- A result that is not `effective` leaves the tables settled. -/
theorem settled_finish {result : String} {reasonCode : Option String} {state : ChangeState}
    {stage : ChangeStage} {db db' : ConfigurationDb} (h : Settled request prior desired db)
    (hresult : controllerResult result = some (state, stage)) (hended : state.isActive = false)
    (hnot : state ≠ .effective)
    (hreason : isReasonCode (reasonCode.getD "configuration_applied") = true)
    (hfinish : finish request result reasonCode db = .ok db') :
    Settled request prior desired db' := by
  rcases h with hunderway | hend
  · obtain ⟨db₁, hdb₁, hend⟩ := finish_ended hunderway hresult hended hreason
    obtain rfl := Except.ok.inj (hfinish.symm.trans hdb₁)
    unfold resultOf at hend
    rw [if_neg hnot] at hend
    exact Or.inr hend
  · obtain ⟨e, he⟩ := hend.refused.2 result reasonCode
    exact absurd (hfinish.symm.trans he) (by simp)

/-- The report of a rollback that is complete. -/
theorem rolledBack_spec (F : (String → Service) → List (RuntimeCall × String) → Prop) :
    Spec (fun w => Settled request prior desired w.db ∧ F w.services w.calls)
      (report fates request .rolledBack (some "prior_revision_restored"))
      (fun _ w => Settled request prior desired w.db ∧ F w.services w.calls)
      (fun _ w => Settled request prior desired w.db ∧ F w.services w.calls) := by
  have hsettled : ∀ {db db'}, Settled request prior desired db →
      finish request "rolled_back" (some "prior_revision_restored") db = .ok db' →
      Settled request prior desired db' := fun h hfinish =>
    settled_finish h (show controllerResult "rolled_back" = some (.rolledBack, .rolledBack) by decide)
      rfl (by decide) (by decide) hfinish
  refine Spec.bind (post_spec ?_ ?_ fun w hw _ => hw) fun _ => Spec.update fun w hw => hw
  · exact fun _ w db hw hdb => ⟨hsettled hw.1 hdb, hw.2⟩
  · exact fun _ w db hw hdb => ⟨hsettled hw.1 hdb, hw.2⟩

/-- The last report of an application that went through. -/
theorem effective_spec (prior : Configuration)
    (F : (String → Service) → List (RuntimeCall × String) → Prop) :
    Spec (fun w => Underway request prior desired w.db ∧ F w.services w.calls)
      (report fates request .effective none)
      (fun _ w => (Ended request desired w.db ∧ F w.services w.calls) ∧
        fates.report .effective = .answered)
      (fun _ w => F w.services w.calls ∧ fates.report .effective ≠ .answered) := by
  have hfinish : ∀ {w : Controlled}, Underway request prior desired w.db →
      ∃ db, finish request "effective" none w.db = .ok db ∧ Ended request desired db := fun h =>
    finish_ended h (show controllerResult "effective" = some (.effective, .effective) by decide)
      rfl (by decide)
  refine Spec.bind (M := fun _ w => (Ended request desired w.db ∧ F w.services w.calls) ∧
    fates.report .effective = .answered) (post_spec ?_ ?_ ?_) fun _ => Spec.update fun w hw => hw
  · intro hanswered w db hw hdb
    obtain ⟨db₁, hdb₁, hend⟩ := hfinish hw.1
    obtain rfl := Except.ok.inj (hdb.symm.trans hdb₁)
    exact ⟨⟨hend, hw.2⟩, hanswered⟩
  · intro hlost w db hw hdb
    exact ⟨hw.2, by rw [hlost]; simp⟩
  · intro w hw hunsent
    obtain ⟨db, hdb, -⟩ := hfinish hw.1
    exact ⟨hw.2, by rw [hunsent db hdb]; simp⟩

/-! ## The `except` clause -/

/-- Every service of the configuration runs with its settings. -/
def RunsValues (values : Values) (services : String → Service) : Prop :=
  ∀ name settings, values.lookup name = some settings → (services name).Runs settings

/-- Nothing was told to drain, and the prior configuration runs. -/
structure Steady (priorValues : Values) (services : String → Service)
    (calls : List (RuntimeCall × String)) : Prop where
  undrained : ¬ Drained calls
  runs : RunsValues priorValues services

theorem kept_restored {w : Controlled} {name : String} {settings : Settings}
    (hname : name ∈ affected) (h : Kept affected before w.services w.calls) :
    Kept affected before (restored w name settings).services (restored w name settings).calls := by
  intro other hother
  have hne : other ≠ name := fun heq => hother (heq ▸ hname)
  obtain ⟨hsame, hcalls⟩ := h other hother
  refine ⟨?_, fun call hin => ?_⟩
  · show Function.update w.services name _ other = _
    rw [Function.update_of_ne hne]
    exact hsame
  · have hnot : ∀ call', (call, other) ≠ (call', name) := fun _ heq => hne (Prod.mk.inj heq).2
    rcases List.mem_cons.mp hin with heq | hin
    · exact hnot _ heq
    rcases List.mem_cons.mp hin with heq | hin
    · exact hnot _ heq
    rcases List.mem_cons.mp hin with heq | hin
    · exact hnot _ heq
    · exact hcalls call hin

theorem drained_restored {w : Controlled} {name : String} {settings : Settings} :
    Drained (restored w name settings).calls ↔ Drained w.calls := by
  constructor
  · rintro ⟨other, hother⟩
    refine ⟨other, ?_⟩
    simpa [restored] using hother
  · rintro ⟨other, hother⟩
    exact ⟨other, List.mem_cons_of_mem _ (List.mem_cons_of_mem _ (List.mem_cons_of_mem _ hother))⟩

/-- A service that was put back serves its prior settings. -/
theorem serves_restored (settings : Settings) :
    Service.Serves ⟨settings, some settings, true, true⟩ settings :=
  ⟨⟨settings, rfl, sameItems_iff.mpr fun _ => rfl⟩, rfl, rfl⟩

/-- Before anything was drained, putting back keeps what runs. -/
theorem rollBack_steady :
    Spec (fun w => Underway request prior desired w.db ∧
        Kept affected before w.services w.calls ∧ Steady priorValues w.services w.calls)
      (rollBack fates request priorValues affected)
      (fun _ w => Settled request prior desired w.db ∧
        Kept affected before w.services w.calls ∧ Steady priorValues w.services w.calls)
      (fun _ w => Settled request prior desired w.db ∧
        Kept affected before w.services w.calls ∧ Steady priorValues w.services w.calls) := by
  unfold rollBack
  refine Spec.bind ((report_spec (fun services calls => Kept affected before services calls ∧
    Steady priorValues services calls) rfl).conseq (fun w hw => hw) (fun _ w hw => hw.1)
      fun _ w hw => ⟨Or.inl hw.1.1, hw.1.2⟩) fun _ => ?_
  refine Spec.bind (M := fun _ w => Settled request prior desired w.db ∧
    Kept affected before w.services w.calls ∧ Steady priorValues w.services w.calls)
    ((Spec.each (fun _ w => Underway request prior desired w.db ∧
      Kept affected before w.services w.calls ∧ Steady priorValues w.services w.calls)
        ?_).conseq (fun w hw => hw) (fun _ w hw => ⟨Or.inl hw.1, hw.2⟩) fun _ w hw => hw)
    fun _ => rolledBack_spec fun services calls => Kept affected before services calls ∧
      Steady priorValues services calls
  intro done name rest haffected
  have hname : name ∈ affected := by
    rw [haffected]
    exact List.mem_append_right _ List.mem_cons_self
  refine restore_spec ?_ fun _ w hw => ⟨Or.inl hw.1, hw.2⟩
  intro settings hlookup w hw
  refine ⟨hw.1, kept_restored hname hw.2.1, fun hdrained => hw.2.2.undrained
    (drained_restored.mp hdrained), fun other settings' hlookup' => ?_⟩
  by_cases heq : other = name
  · subst heq
    obtain rfl := Option.some.inj (hlookup.symm.trans hlookup')
    show (Function.update w.services other _ other).Runs _
    rw [Function.update_self]
    exact (serves_restored settings).runs
  · show (Function.update w.services name _ other).Runs _
    rw [Function.update_of_ne heq]
    exact hw.2.2.runs other settings' hlookup'

/-- What putting back leaves where it raises. -/
def NotRestored (fates : Fates) (request : ChangeRequest) (prior desired : Configuration)
    (priorValues : Values) (affected : List String) (w : Controlled) : Prop :=
  (fates.report .rollingBack ≠ .answered ∧ ∃ name ∈ affected, (w.services name).validated = false) ∨
  ¬ Covered priorValues affected ∨
  (fates.report .rollingBack = .answered ∧ Covered priorValues affected ∧
    Settled request prior desired w.db ∧
      ∀ name ∈ affected, ServedBy priorValues name (w.services name))

theorem rollBack_broken :
    Spec (Broken request prior desired affected before)
      (rollBack fates request priorValues affected)
      (fun _ w => (Kept affected before w.services w.calls ∧ Drained w.calls) ∧
        NotRestored fates request prior desired priorValues affected w)
      (fun _ w => (Kept affected before w.services w.calls ∧ Drained w.calls) ∧
        NotRestored fates request prior desired priorValues affected w) := by
  unfold rollBack
  refine Spec.bind (M := fun _ w => (Underway request prior desired w.db ∧
    Kept affected before w.services w.calls ∧ Drained w.calls) ∧
    fates.report .rollingBack = .answered) ((report_spec (fun services calls =>
      Kept affected before services calls ∧ Drained calls ∧
        ∃ name ∈ affected, (services name).validated = false) rfl).conseq
      (fun w hw => ⟨hw.1.underway, hw.1.kept, hw.1.drained trivial, hw.2⟩)
      (fun _ w hw => ⟨⟨hw.1.1, hw.1.2.1, hw.1.2.2.1⟩, hw.2⟩)
      fun _ w hw => ⟨⟨hw.1.2.1, hw.1.2.2.1⟩, Or.inl ⟨hw.2, hw.1.2.2.2⟩⟩)
    fun _ => Spec.assume fun hrolling => ?_
  refine Spec.bind (M := fun _ w => Settled request prior desired w.db ∧
    (Kept affected before w.services w.calls ∧ Drained w.calls) ∧ Covered priorValues affected ∧
      ∀ name ∈ affected, ServedBy priorValues name (w.services name))
    ((Spec.each (fun done w => Underway request prior desired w.db ∧
      (Kept affected before w.services w.calls ∧ Drained w.calls) ∧ Covered priorValues done ∧
      ∀ name ∈ done, ServedBy priorValues name (w.services name)) ?_).conseq
        (fun w hw => ⟨hw.1, hw.2, by simp [Covered], by simp⟩) (fun _ w hw => ⟨Or.inl hw.1, hw.2⟩)
        fun _ w hw => hw)
    fun _ => (rolledBack_spec fun services calls => (Kept affected before services calls ∧
      Drained calls) ∧ Covered priorValues affected ∧
        ∀ name ∈ affected, ServedBy priorValues name (services name)).conseq (fun w hw => hw)
      (fun _ w hw => ⟨hw.2.1, Or.inr (Or.inr ⟨hrolling, hw.2.2.1, hw.1, hw.2.2.2⟩)⟩)
      fun _ w hw => ⟨hw.2.1, Or.inr (Or.inr ⟨hrolling, hw.2.2.1, hw.1, hw.2.2.2⟩)⟩
  intro done name rest haffected
  have hname : name ∈ affected := by
    rw [haffected]
    exact List.mem_append_right _ List.mem_cons_self
  refine restore_spec ?_ ?_
  · rintro settings hlookup w ⟨hunderway, ⟨hkept, hdrained⟩, hcovered, hserved⟩
    refine ⟨hunderway, ⟨kept_restored hname hkept, drained_restored.mpr hdrained⟩, ?_, ?_⟩
    · intro other hother
      rcases List.mem_append.mp hother with hother | hother
      · exact hcovered other hother
      · rw [List.mem_singleton.mp hother]
        exact ⟨settings, hlookup⟩
    · intro other hother
      by_cases heq : other = name
      · subst heq
        show ServedBy priorValues other (Function.update w.services other _ other)
        rw [Function.update_self]
        exact ⟨settings, hlookup, serves_restored settings⟩
      · show ServedBy priorValues other (Function.update w.services name _ other)
        rw [Function.update_of_ne heq]
        rcases List.mem_append.mp hother with hother | hother
        · exact hserved other hother
        · exact absurd (List.mem_singleton.mp hother) heq
  · rintro hnone w ⟨-, htouched, -, -⟩
    refine ⟨htouched, Or.inr (Or.inl fun hcovered => ?_)⟩
    obtain ⟨settings, hlookup⟩ := hcovered name hname
    rw [hnone] at hlookup
    exact absurd hlookup (by simp)

end Rollback

end LocalRag.Admin
