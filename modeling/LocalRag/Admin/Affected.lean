import LocalRag.Admin.Changes

/-!
# What an application leaves — the services, step by step

Rules for the steps of `Admin.Applying`, and what the `try` body, its `except` clause and the
outer handler leave, in `forward_spec`, `rollBack_spec` and `reportFailed_spec`. The assertions are about three things at once: the
change is underway in the ledger, only affected services were touched, and each affected service
is as far as the loop has got it.

Until the last loop no affected service is validated, and a call that raises leaves its service
not validated. So wherever the `try` body stops, one affected service is not.
-/

namespace LocalRag.Admin

open LocalRag.Core

/-! ## Rules for the steps -/

variable {Q : Unit → Controlled → Prop}

theorem post_spec {P R : Controlled → Prop} {fate : ReportFate}
    {call : ConfigurationDb → Except SqlError ConfigurationDb}
    (hok : fate = .answered → ∀ w db, P w → call w.db = .ok db → Q () { w with db := db })
    (hlost : fate = .lost → ∀ w db, P w → call w.db = .ok db → R { w with db := db })
    (hrefused : ∀ w, P w → (∀ db, call w.db = .ok db → fate = .unsent) → R w) :
    Spec P (post fate call) Q fun _ => R := by
  refine ⟨fun w hw => ?_⟩
  unfold post
  cases hcall : call w.db with
  | error e =>
    have hnone := hrefused w hw fun db hdb => absurd (hcall.symm.trans hdb) (by simp)
    cases fate with
    | answered => exact hnone
    | lost => exact hnone
    | unsent => exact hnone
  | ok db =>
    cases fate with
    | answered => exact hok rfl w db hw hcall
    | lost => exact hlost rfl w db hw hcall
    | unsent => exact hrefused w hw fun _ _ => rfl

variable {call : RuntimeCall}

theorem callRuntime_spec {P R : Controlled → Prop} {service : String} {fate : CallFate}
    {effect : Service → Service}
    (hreturns : fate = .returns → ∀ w, P w → Q () { w with
      calls := (call, service) :: w.calls
      services := Function.update w.services service (effect (w.services service)) })
    (hraises : ∀ left, fate = .raises left → ∀ w, P w → R { w with
      calls := (call, service) :: w.calls
      services := Function.update w.services service { left with validated := false } }) :
    Spec P (callRuntime call service fate effect) Q fun _ => R := by
  refine ⟨fun w hw => ?_⟩
  cases fate with
  | returns => exact hreturns rfl w hw
  | raises left => exact hraises left rfl w hw

/-- A service after `restore`. -/
def restored (w : Controlled) (service : String) (settings : Settings) : Controlled :=
  { w with
    calls := (.validate, service) :: (.restart, service) :: (.replaceEnvironment, service) :: w.calls
    services := Function.update w.services service ⟨settings, some settings, true, true⟩ }

theorem restore_spec {P R : Controlled → Prop} {values : Values} {service : String}
    (hsome : ∀ settings, values.lookup service = some settings → ∀ w, P w →
      Q () (restored w service settings)) (hnone : values.lookup service = none → ∀ w, P w → R w) :
    Spec P (restore values service) Q fun _ => R := by
  refine ⟨fun w hw => ?_⟩
  cases hlookup : values.lookup service with
  | none =>
    have hraise : restore values service w = (.error (.key service), w) := by
      unfold restore itemOf
      rw [hlookup]
      rfl
    rw [hraise]
    exact hnone hlookup w hw
  | some settings =>
    have hreturn : restore values service w =
        (.ok (), restored w service settings) := by
      unfold restore itemOf
      rw [hlookup]
      show (Except.ok (), ({ w with
        calls := _
        services := Function.update (Function.update (Function.update w.services service _)
          service _) service _ } : Controlled)) = _
      simp only [Function.update_idem, Function.update_self]
      rfl
    rw [hreturn]
    exact hsome settings hlookup w hw

/-! ## Assertions -/

/-- The process runs with these settings. -/
def Service.Runs (service : Service) (settings : Settings) : Prop :=
  ∃ r, service.running = some r ∧ sameItems r settings = true

/-- The process runs with these settings, and this application restarted and validated it. -/
structure Service.Serves (service : Service) (settings : Settings) : Prop where
  runs : service.Runs settings
  restarted : service.restarted = true
  validated : service.validated = true

/-- The service is as the configuration's values have it. -/
def ServedBy (values : Values) (name : String) (service : Service) : Prop :=
  ∃ settings, values.lookup name = some settings ∧ service.Serves settings

/-- Services outside the affected ones are as before, and no call was made of them. -/
def Kept (affected : List String) (before services : String → Service)
    (calls : List (RuntimeCall × String)) : Prop :=
  ∀ name ∉ affected, services name = before name ∧ ∀ call, (call, name) ∉ calls

/-- Some service was told to drain. -/
def Drained (calls : List (RuntimeCall × String)) : Prop := ∃ name, (.drain, name) ∈ calls

section Assertions

variable (fates : Fates) (request : ChangeRequest) (prior desired : Configuration)
  (desiredValues : Values) (affected : List String) (before : String → Service)

/-- The change is underway, only affected services were touched, and each of them meets `G`. -/
structure Going (drained : Prop) (G : String → Service → Prop) (w : Controlled) : Prop where
  underway : Underway request prior desired w.db
  kept : Kept affected before w.services w.calls
  drained : drained → Drained w.calls
  each : ∀ name ∈ affected, G name (w.services name)

/-- The same after a call or a report raised: some affected service is not validated. -/
def Broken (w : Controlled) : Prop :=
  Going request prior desired affected before True (fun _ _ => True) w ∧
    ∃ name ∈ affected, (w.services name).validated = false

/-- Nothing of the `try` body raises. -/
structure Forward : Prop where
  reports : ∀ stage ∈ [ControllerStage.draining, .applying, .restarting, .validating],
    fates.report stage = .answered
  settings : ∀ name ∈ affected, ∃ settings, desiredValues.lookup name = some settings
  calls : ∀ call, ∀ name ∈ affected, fates.call call name = .returns

end Assertions

section Steps

variable {fates : Fates} {request : ChangeRequest} {prior desired : Configuration}
  {desiredValues : Values} {affected : List String} {before : String → Service}

/-- A stage that is advanced to changes neither services nor calls. -/
theorem report_spec (F : (String → Service) → List (RuntimeCall × String) → Prop)
    {stage : ControllerStage} {reasonCode : Option String}
    (hstage : (controllerStage stage.value).isSome = true) :
    Spec (fun w => Underway request prior desired w.db ∧ F w.services w.calls)
      (report fates request stage reasonCode)
      (fun _ w => (Underway request prior desired w.db ∧ F w.services w.calls) ∧
        fates.report stage = .answered)
      (fun _ w => (Underway request prior desired w.db ∧ F w.services w.calls) ∧
        fates.report stage ≠ .answered) := by
  have hpost : apiStage fates request stage reasonCode =
      post (fates.report stage) (advance request stage) := by
    cases stage with
    | preflight => exact absurd hstage (by decide)
    | effective => exact absurd hstage (by decide)
    | failed => exact absurd hstage (by decide)
    | rolledBack => exact absurd hstage (by decide)
    | draining => rfl
    | applying => rfl
    | restarting => rfl
    | validating => rfl
    | rollingBack => rfl
  have hstays : ∀ {w : Controlled} {db}, Underway request prior desired w.db →
      advance request stage w.db = .ok db → Underway request prior desired db := by
    intro w db hw hdb
    obtain ⟨db', hdb', hunderway⟩ := advance_underway hw hstage
    rw [Except.ok.inj (hdb.symm.trans hdb')]
    exact hunderway
  unfold report
  rw [hpost]
  refine Spec.bind (M := fun _ w => (Underway request prior desired w.db ∧ F w.services w.calls) ∧
    fates.report stage = .answered) (post_spec ?_ ?_ ?_) fun _ => Spec.update fun w hw => hw
  · intro hanswered w db hw hdb
    exact ⟨⟨hstays hw.1 hdb, hw.2⟩, hanswered⟩
  · intro hlost w db hw hdb
    exact ⟨⟨hstays hw.1 hdb, hw.2⟩, by rw [hlost]; simp⟩
  · intro w hw hunsent
    obtain ⟨db, hdb, -⟩ := advance_underway hw.1 hstage
    exact ⟨hw, by rw [hunsent db hdb]; simp⟩

variable {drained : Prop} {G : String → Service → Prop}

theorem report_going {stage : ControllerStage} {reasonCode : Option String}
    (hstage : (controllerStage stage.value).isSome = true) :
    Spec (Going request prior desired affected before drained G)
      (report fates request stage reasonCode)
      (fun _ w => Going request prior desired affected before drained G w ∧
        fates.report stage = .answered)
      (fun _ w => Going request prior desired affected before drained G w ∧
        fates.report stage ≠ .answered) := by
  refine (report_spec (fun services calls => Kept affected before services calls ∧
    (drained → Drained calls) ∧ ∀ name ∈ affected, G name (services name)) hstage).conseq
    (fun w hw => ⟨hw.underway, hw.kept, hw.drained, hw.each⟩) ?_ ?_
  · rintro - w ⟨⟨hunderway, hkept, hdrained, heach⟩, hanswered⟩
    exact ⟨⟨hunderway, hkept, hdrained, heach⟩, hanswered⟩
  · rintro - w ⟨⟨hunderway, hkept, hdrained, heach⟩, hanswered⟩
    exact ⟨⟨hunderway, hkept, hdrained, heach⟩, hanswered⟩

variable {w : Controlled}

/-- A call on an affected service touches no other. -/
theorem kept_call {name : String} (hname : name ∈ affected) {service : Service}
    (hw : Kept affected before w.services w.calls) :
    Kept affected before (Function.update w.services name service) ((call, name) :: w.calls) := by
  intro other hother
  have hne : other ≠ name := fun heq => hother (heq ▸ hname)
  obtain ⟨hsame, hcalls⟩ := hw other hother
  refine ⟨?_, fun call' hin => ?_⟩
  · rw [Function.update_of_ne hne]
    exact hsame
  · rcases List.mem_cons.mp hin with heq | hin
    · exact hne (Prod.mk.inj heq).2
    · exact hcalls call' hin

/-- A call of the runtime: what its service meets afterwards, and that the others meet what they
did. -/
theorem call_going {drained' : Prop} {G' : String → Service → Prop} {name : String}
    {fate : CallFate} {effect : Service → Service} (hname : name ∈ affected)
    (hdrained : drained ∨ call = .drain) (hreturns : ∀ v, G name v → G' name (effect v))
    (hothers : ∀ other, other ≠ name → ∀ v, G other v → G' other v) :
    Spec (Going request prior desired affected before drained G)
      (callRuntime call name fate effect)
      (fun _ w => Going request prior desired affected before drained' G' w ∧ fate = .returns)
      (fun _ w => Broken request prior desired affected before w ∧ fate ≠ .returns) := by
  have hcalls : ∀ w, Going request prior desired affected before drained G w →
      Drained ((call, name) :: w.calls) := by
    intro w hw
    rcases hdrained with hd | rfl
    · obtain ⟨other, hother⟩ := hw.drained hd
      exact ⟨other, List.mem_cons_of_mem _ hother⟩
    · exact ⟨name, List.mem_cons_self⟩
  refine callRuntime_spec ?_ ?_
  · intro hfate w hw
    refine ⟨⟨hw.underway, kept_call hname hw.kept, fun _ => hcalls w hw, ?_⟩, hfate⟩
    intro other hother
    by_cases heq : other = name
    · subst heq
      show G' other (Function.update w.services other _ other)
      rw [Function.update_self]
      exact hreturns _ (hw.each other hother)
    · show G' other (Function.update w.services name _ other)
      rw [Function.update_of_ne heq]
      exact hothers other heq _ (hw.each other hother)
  · intro left hfate w hw
    refine ⟨⟨⟨hw.underway, kept_call hname hw.kept, fun _ => hcalls w hw, fun _ _ => trivial⟩,
      name, hname, ?_⟩, by rw [hfate]; simp⟩
    show (Function.update w.services name _ name).validated = false
    rw [Function.update_self]

/-! ## The loops -/

/-- A loop over the affected services, by what one service of it does. -/
theorem each_going (drained : List String → Prop) (G : List String → String → Service → Prop)
    (Ok : String → Prop) {body : String → Applies Unit}
    (hbody : ∀ done name, name ∈ affected →
      Spec (Going request prior desired affected before (drained done) (G done)) (body name)
        (fun _ w => Going request prior desired affected before (drained (done ++ [name]))
          (G (done ++ [name])) w ∧ Ok name)
        (fun _ w => Broken request prior desired affected before w ∧ ¬ Ok name)) :
    Spec (Going request prior desired affected before (drained []) (G []))
      (Gen.each body affected)
      (fun _ w => Going request prior desired affected before (drained affected) (G affected) w ∧
        ∀ name ∈ affected, Ok name)
      (fun _ w => Broken request prior desired affected before w ∧
        ¬ ∀ name ∈ affected, Ok name) := by
  refine (Spec.each (fun done w => Going request prior desired affected before (drained done)
    (G done) w ∧ ∀ name ∈ done, Ok name) ?_).conseq (fun w hw => ⟨hw, by simp⟩) (fun _ w hw => hw)
    fun _ w hw => hw
  intro done name rest haffected
  have hname : name ∈ affected := by
    rw [haffected]
    exact List.mem_append_right _ List.mem_cons_self
  refine Spec.assume fun hdone => (hbody done name hname).conseq (fun w hw => hw) ?_ ?_
  · rintro - w ⟨hw, hok⟩
    refine ⟨hw, fun other hother => ?_⟩
    rcases List.mem_append.mp hother with hother | hother
    · exact hdone other hother
    · rw [List.mem_singleton.mp hother]
      exact hok
  · rintro - w ⟨hw, hok⟩
    exact ⟨hw, fun hall => hok (hall name hname)⟩

/-- Where no affected service is validated, stopping leaves one that is not. -/
theorem Going.broken (h : Going request prior desired affected before drained G w)
    (hne : affected ≠ []) (hdrained : drained) (hG : ∀ name v, G name v → v.validated = false) :
    Broken request prior desired affected before w := by
  obtain ⟨name, hname⟩ := List.exists_mem_of_ne_nil affected hne
  exact ⟨⟨h.underway, h.kept, fun _ => h.drained hdrained, fun _ _ => trivial⟩, name, hname,
    hG name _ (h.each name hname)⟩

section Loops

variable (fates)

theorem drain_loop :
    Spec (Going request prior desired affected before False fun _ v => v.validated = false)
      (Gen.each (fun name => drain (fates.call .drain name) name) affected)
      (fun _ w => Going request prior desired affected before (affected ≠ [])
        (fun _ v => v.validated = false) w ∧ ∀ name ∈ affected, fates.call .drain name = .returns)
      (fun _ w => Broken request prior desired affected before w ∧
        ¬ ∀ name ∈ affected, fates.call .drain name = .returns) := by
  refine (each_going (fun done => done ≠ []) (fun _ _ v => v.validated = false)
    (fun name => fates.call .drain name = .returns) fun done name hname => ?_).conseq
    (fun w hw => ?_) (fun _ w hw => hw) fun _ w hw => hw
  · exact call_going hname (Or.inr rfl) (fun v hv => hv) fun other _ v hv => hv
  · exact ⟨hw.underway, hw.kept, fun hnil => absurd rfl hnil, hw.each⟩

theorem replace_loop (hne : affected ≠ []) :
    Spec (Going request prior desired affected before True fun _ v => v.validated = false)
      (Gen.each (fun name => do
        let values ← Gen.lift (itemOf desiredValues name)
        replaceEnvironment (fates.call .replaceEnvironment name) name values) affected)
      (fun _ w => Going request prior desired affected before True
        (fun name v => v.validated = false ∧ (name ∈ affected →
          ∃ settings, desiredValues.lookup name = some settings ∧ v.override = settings)) w ∧
        ∀ name ∈ affected, (∃ settings, desiredValues.lookup name = some settings) ∧
          fates.call .replaceEnvironment name = .returns)
      (fun _ w => Broken request prior desired affected before w ∧
        ¬ ∀ name ∈ affected, (∃ settings, desiredValues.lookup name = some settings) ∧
          fates.call .replaceEnvironment name = .returns) := by
  refine (each_going (fun _ => True) (fun done name v => v.validated = false ∧ (name ∈ done →
    ∃ settings, desiredValues.lookup name = some settings ∧ v.override = settings))
    (fun name => (∃ settings, desiredValues.lookup name = some settings) ∧
      fates.call .replaceEnvironment name = .returns) fun done name hname => ?_).conseq
    (fun w hw => ?_) (fun _ w hw => hw) fun _ w hw => hw
  · refine Spec.bind (M := fun values w => Going request prior desired affected before True
      (fun name v => v.validated = false ∧ (name ∈ done →
        ∃ settings, desiredValues.lookup name = some settings ∧ v.override = settings)) w ∧
        desiredValues.lookup name = some values) (Spec.lift ?_ ?_) ?_
    · intro values hitem w hw
      refine ⟨hw, ?_⟩
      unfold itemOf at hitem
      split at hitem
      next settings hlookup => rw [hlookup, Except.ok.inj hitem]
      · exact absurd hitem (by simp)
    · intro e hitem w hw
      refine ⟨hw.broken hne trivial fun _ _ hv => hv.1, fun hok => ?_⟩
      obtain ⟨settings, hlookup⟩ := hok.1
      unfold itemOf at hitem
      rw [hlookup] at hitem
      exact absurd hitem (by simp)
    · intro values
      refine Spec.assume fun hlookup => (call_going hname (Or.inl trivial)
        (fun v hv => ⟨hv.1, fun _ => ⟨values, hlookup, rfl⟩⟩) ?_).conseq (fun w hw => hw)
        (fun _ w hw => ⟨hw.1, ⟨values, hlookup⟩, hw.2⟩) fun _ w hw => ⟨hw.1, fun hok => hw.2 hok.2⟩
      intro other hother v hv
      refine ⟨hv.1, fun hin => hv.2 ?_⟩
      rcases List.mem_append.mp hin with hin | hin
      · exact hin
      · exact absurd (List.mem_singleton.mp hin) hother
  · exact ⟨hw.underway, hw.kept, hw.drained, fun name hname =>
      ⟨hw.each name hname, fun hin => absurd hin (by simp)⟩⟩

theorem restart_loop :
    Spec (Going request prior desired affected before True fun name v => v.validated = false ∧
        ∃ settings, desiredValues.lookup name = some settings ∧ v.override = settings)
      (Gen.each (fun name => restart (fates.call .restart name) name) affected)
      (fun _ w => Going request prior desired affected before True
        (fun name v => v.validated = false ∧
          ∃ settings, desiredValues.lookup name = some settings ∧ v.override = settings ∧
            (name ∈ affected → v.running = some settings ∧ v.restarted = true)) w ∧
        ∀ name ∈ affected, fates.call .restart name = .returns)
      (fun _ w => Broken request prior desired affected before w ∧
        ¬ ∀ name ∈ affected, fates.call .restart name = .returns) := by
  refine (each_going (fun _ => True) (fun done name v => v.validated = false ∧
    ∃ settings, desiredValues.lookup name = some settings ∧ v.override = settings ∧
      (name ∈ done → v.running = some settings ∧ v.restarted = true))
    (fun name => fates.call .restart name = .returns) fun done name hname => ?_).conseq
    (fun w hw => ?_) (fun _ w hw => hw) fun _ w hw => hw
  · refine call_going hname (Or.inl trivial) ?_ ?_
    · rintro v ⟨-, settings, hlookup, hoverride, -⟩
      exact ⟨rfl, settings, hlookup, hoverride, fun _ => ⟨congrArg some hoverride, rfl⟩⟩
    · rintro other hother v ⟨hvalidated, settings, hlookup, hoverride, hruns⟩
      refine ⟨hvalidated, settings, hlookup, hoverride, fun hin => hruns ?_⟩
      rcases List.mem_append.mp hin with hin | hin
      · exact hin
      · exact absurd (List.mem_singleton.mp hin) hother
  · refine ⟨hw.underway, hw.kept, hw.drained, fun name hname => ?_⟩
    obtain ⟨hvalidated, settings, hlookup, hoverride⟩ := hw.each name hname
    exact ⟨hvalidated, settings, hlookup, hoverride, fun hin => absurd hin (by simp)⟩

theorem validate_loop :
    Spec (Going request prior desired affected before True fun name v =>
        ∃ settings, desiredValues.lookup name = some settings ∧ v.running = some settings ∧
          v.restarted = true)
      (Gen.each (fun name => validate (fates.call .validate name) name) affected)
      (fun _ w => Going request prior desired affected before True (ServedBy desiredValues) w ∧
        ∀ name ∈ affected, fates.call .validate name = .returns)
      (fun _ w => Broken request prior desired affected before w ∧
        ¬ ∀ name ∈ affected, fates.call .validate name = .returns) := by
  refine (each_going (fun _ => True) (fun done name v => (∃ settings,
    desiredValues.lookup name = some settings ∧ v.running = some settings ∧ v.restarted = true) ∧
      (name ∈ done → v.validated = true))
    (fun name => fates.call .validate name = .returns) fun done name hname => ?_).conseq
    (fun w hw => ?_) (fun _ w hw => ?_) fun _ w hw => hw
  · refine call_going hname (Or.inl trivial) (fun v hv => ⟨hv.1, fun _ => rfl⟩) ?_
    intro other hother v hv
    refine ⟨hv.1, fun hin => hv.2 ?_⟩
    rcases List.mem_append.mp hin with hin | hin
    · exact hin
    · exact absurd (List.mem_singleton.mp hin) hother
  · exact ⟨hw.underway, hw.kept, hw.drained, fun name hname =>
      ⟨hw.each name hname, fun hin => absurd hin (by simp)⟩⟩
  · refine ⟨⟨hw.1.underway, hw.1.kept, hw.1.drained, fun name hname => ?_⟩, hw.2⟩
    obtain ⟨⟨settings, hlookup, hrunning, hrestarted⟩, hvalidated⟩ := hw.1.each name hname
    exact ⟨settings, hlookup, ⟨settings, hrunning, sameItems_iff.mpr fun _ => rfl⟩, hrestarted,
      hvalidated hname⟩

end Loops

/-! ## The `try` body -/

/-- Nothing was done yet. -/
structure Untouched (before : String → Service) (w : Controlled) : Prop where
  services : w.services = before
  calls : w.calls = []

theorem Untouched.kept (h : Untouched before w) : Kept affected before w.services w.calls := by
  intro name _
  rw [h.services, h.calls]
  exact ⟨rfl, fun _ => List.not_mem_nil⟩

/-- What `forward` leaves where it raises: nothing done, or a service that is not validated. -/
def Stopped (fates : Fates) (request : ChangeRequest) (prior desired : Configuration)
    (affected : List String) (before : String → Service) (w : Controlled) : Prop :=
  (fates.report .draining ≠ .answered ∧ Underway request prior desired w.db ∧
    Untouched before w) ∨
  (fates.report .draining = .answered ∧ Broken request prior desired affected before w)

theorem forward_spec (hne : affected ≠ []) (hbefore : ∀ name, (before name).validated = false) :
    Spec (fun w => Underway request prior desired w.db ∧ Untouched before w)
      (forward fates request desiredValues affected)
      (fun _ w => Going request prior desired affected before True (ServedBy desiredValues) w ∧
        Forward fates desiredValues affected)
      (fun _ w => Stopped fates request prior desired affected before w ∧
        ¬ Forward fates desiredValues affected) := by
  unfold forward
  have hreport : ∀ {stage}, stage ∈ [ControllerStage.draining, .applying, .restarting,
      .validating] → fates.report stage ≠ .answered → ¬ Forward fates desiredValues affected :=
    fun hin hnot hall => hnot (hall.reports _ hin)
  refine Spec.bind (M := fun _ w => Going request prior desired affected before False
    (fun _ v => v.validated = false) w ∧ fates.report .draining = .answered)
    ((report_spec (fun services calls => services = before ∧ calls = []) rfl).conseq
      (fun w hw => ⟨hw.1, hw.2.services, hw.2.calls⟩) ?_ ?_) fun _ => Spec.assume fun hdraining => ?_
  · rintro - w ⟨⟨hunderway, hservices, hcalls⟩, hanswered⟩
    refine ⟨⟨hunderway, Untouched.kept ⟨hservices, hcalls⟩, False.elim, fun name _ => ?_⟩,
      hanswered⟩
    rw [hservices]
    exact hbefore name
  · rintro - w ⟨⟨hunderway, hservices, hcalls⟩, hnot⟩
    exact ⟨Or.inl ⟨hnot, hunderway, hservices, hcalls⟩, hreport (by simp) hnot⟩
  have hstopped : ∀ {w}, Broken request prior desired affected before w →
      Stopped fates request prior desired affected before w := fun hw => Or.inr ⟨hdraining, hw⟩
  refine Spec.bind (M := fun _ w => Going request prior desired affected before True
    (fun _ v => v.validated = false) w ∧ ∀ name ∈ affected, fates.call .drain name = .returns)
    ((drain_loop fates).conseq (fun w hw => hw)
      (fun _ w hw => ⟨⟨hw.1.underway, hw.1.kept, fun _ => hw.1.drained hne, hw.1.each⟩, hw.2⟩)
      fun _ w hw => ⟨hstopped hw.1, fun hall => hw.2 (hall.calls .drain)⟩)
    fun _ => Spec.assume fun hdrain => ?_
  refine Spec.bind ((report_going rfl).conseq (fun w hw => hw) (fun _ w hw => hw) fun _ w hw =>
    ⟨hstopped (hw.1.broken hne trivial fun _ _ hv => hv), hreport (by simp) hw.2⟩)
    fun _ => Spec.assume fun happlying => ?_
  refine Spec.bind ((replace_loop fates hne).conseq (fun w hw => hw) (fun _ w hw => hw)
    fun _ w hw => ⟨hstopped hw.1, fun hall => hw.2 fun name hname =>
      ⟨hall.settings name hname, hall.calls .replaceEnvironment name hname⟩⟩)
    fun _ => Spec.assume fun hreplace => ?_
  refine Spec.bind ((report_going rfl).conseq (fun w hw => hw) (fun _ w hw => hw) fun _ w hw =>
    ⟨hstopped (hw.1.broken hne trivial fun _ _ hv => hv.1), hreport (by simp) hw.2⟩)
    fun _ => Spec.assume fun hrestarting => ?_
  refine Spec.bind ((restart_loop fates).conseq (fun w hw => ⟨hw.underway, hw.kept, hw.drained,
      fun name hname => ⟨(hw.each name hname).1, (hw.each name hname).2 hname⟩⟩)
    (fun _ w hw => hw) fun _ w hw => ⟨hstopped hw.1, fun hall => hw.2 (hall.calls .restart)⟩)
    fun _ => Spec.assume fun hrestart => ?_
  refine Spec.bind ((report_going rfl).conseq (fun w hw => hw) (fun _ w hw => hw) fun _ w hw =>
    ⟨hstopped (hw.1.broken hne trivial fun _ _ hv => hv.1), hreport (by simp) hw.2⟩)
    fun _ => Spec.assume fun hvalidating => ?_
  refine (validate_loop fates).conseq (fun w hw => ⟨hw.underway, hw.kept, hw.drained,
      fun name hname => ?_⟩) (fun _ w hw => ⟨hw.1, ?_, fun name hname => (hreplace name hname).1,
        ?_⟩) fun _ w hw => ⟨hstopped hw.1, fun hall => hw.2 (hall.calls .validate)⟩
  · obtain ⟨-, settings, hlookup, -, hruns⟩ := hw.each name hname
    exact ⟨settings, hlookup, hruns hname⟩
  · intro stage hstage
    simp only [List.mem_cons, List.not_mem_nil, or_false] at hstage
    rcases hstage with rfl | rfl | rfl | rfl
    · exact hdraining
    · exact happlying
    · exact hrestarting
    · exact hvalidating
  · intro call name hname
    cases call with
    | drain => exact hdrain name hname
    | replaceEnvironment => exact (hreplace name hname).2
    | restart => exact hrestart name hname
    | validate => exact hw.2 name hname

end Steps

end LocalRag.Admin
