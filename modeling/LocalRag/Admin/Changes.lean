import LocalRag.Admin.Applying

/-!
# One change in the ledger — claimed, advanced, finished

The controller's side of `Admin.Configuration`: what the requests of one application leave in the
tables. `Underway` is a change that was claimed and not finished, `Ended` one that was. A change
that is underway takes every stage and every result; finished, it takes nothing more, so the
effective revision that the finish left is there for good. Both follow from `LedgerInv`, through
`call_writes`.
-/

namespace LocalRag.Admin

open LocalRag.Core

/-- The tables of some history of calls. -/
def Reached (db : ConfigurationDb) : Prop :=
  ∃ effected applications, LedgerInv ⟨db, effected, applications⟩

/-- The effective revision has this configuration. -/
def EffectiveIs (configuration : Configuration) (db : ConfigurationDb) : Prop :=
  ∃ r, effectiveRevision db = .ok r ∧ r.configuration = configuration

/-- The revision of this id has this configuration. -/
def RevisionHas (db : ConfigurationDb) (id : RevisionId) (configuration : Configuration) : Prop :=
  ∃ r ∈ db.revisions, r.id = id ∧ r.configuration = configuration

/-- The change was claimed with its nonce and leads from one configuration to the other. -/
structure Underway (request : ChangeRequest) (prior desired : Configuration)
    (db : ConfigurationDb) : Prop where
  reached : Reached db
  change : ∃ c ∈ db.changes, c.opens request.changeId .applying request.nonceHash = true ∧
    RevisionHas db c.priorRevisionId prior ∧ RevisionHas db c.desiredRevisionId desired

/-- The change is finished, with this configuration effective. -/
structure Ended (request : ChangeRequest) (configuration : Configuration) (db : ConfigurationDb) :
    Prop where
  reached : Reached db
  change : ∃ c ∈ db.changes, c.id = request.changeId ∧ c.state.isActive = false
  effective : EffectiveIs configuration db

variable {request : ChangeRequest} {prior desired configuration : Configuration}
  {db db' : ConfigurationDb}

theorem reached_call (call : ConfigurationCall) (h : Reached db)
    (hcall : callConfiguration (fun _ => 0) db call = .ok db') : Reached db' := by
  obtain ⟨effected, applications, hl⟩ := h
  exact ⟨_, _, writes_inv hl (call_writes (fun _ => 0) hl hcall)⟩

/-- The one effective row is what the lookup returns. -/
theorem effectiveIs_of (hkeyed : Keyed (·.id) db.revisions) {id : RevisionId}
    (hone : (db.revisions.filter (·.effective)).map (·.id) = [id])
    (hhas : RevisionHas db id configuration) : EffectiveIs configuration db := by
  obtain ⟨r, hr, hid, hconfiguration⟩ := hhas
  obtain ⟨r', hfilter, hid'⟩ := List.map_eq_singleton_iff.mp hone
  have hin : r' ∈ db.revisions.filter (·.effective) := by
    rw [hfilter]
    exact List.mem_singleton.mpr rfl
  have hsame : r' = r := hkeyed.eq (List.mem_filter.mp hin).1 hr (hid'.trans hid.symm)
  refine ⟨r, ?_, hconfiguration⟩
  unfold effectiveRevision
  rw [hfilter, hsame]

theorem Underway.effective (h : Underway request prior desired db) : EffectiveIs prior db := by
  obtain ⟨⟨effected, applications, hl⟩, c, hc, hopens, hprior, -⟩ := h
  have hcurrent := (hl.prior c hc (opens_active rfl hopens)).1
  rw [hcurrent] at hprior
  exact effectiveIs_of hl.revisions hl.effective hprior

/-! ## Claim and stages -/

theorem changeConfigurations_mem {pair : Configuration × Configuration} {changeId : ChangeId}
    (h : pair ∈ changeConfigurations db changeId) :
    ∃ c ∈ db.changes, c.id = changeId ∧ RevisionHas db c.priorRevisionId pair.1 ∧
      RevisionHas db c.desiredRevisionId pair.2 := by
  unfold changeConfigurations at h
  obtain ⟨c, hc, h⟩ := List.mem_flatMap.mp h
  obtain ⟨hc, hid⟩ := List.mem_filter.mp hc
  obtain ⟨p, hp, h⟩ := List.mem_flatMap.mp h
  obtain ⟨hp, hpid⟩ := List.mem_filter.mp hp
  obtain ⟨d, hd, rfl⟩ := List.mem_map.mp h
  obtain ⟨hd, hdid⟩ := List.mem_filter.mp hd
  exact ⟨c, hc, of_decide_eq_true hid, ⟨p, hp, of_decide_eq_true hpid, rfl⟩,
    ⟨d, hd, of_decide_eq_true hdid, rfl⟩⟩

/-- An update that went through found a row. -/
theorem updateChange_any {message : String} {p : ConfigurationChange → Bool}
    {f : ConfigurationChange → ConfigurationChange} (h : updateChange db message p f = .ok db') :
    ∃ c ∈ db.changes, p c = true := by
  unfold updateChange at h
  split at h
  next hany => exact List.any_eq_true.mp hany
  · exact absurd h (by simp)

theorem claim_underway (hreached : Reached db)
    (h : claimConfiguration db request = .ok (db', prior, desired)) :
    Underway request prior desired db' := by
  unfold claimConfiguration at h
  split at h
  · exact absurd h (by simp)
  next db₁ hclaim =>
    split at h
    next p d hone =>
      obtain ⟨rfl, hpair⟩ := Prod.mk.inj (Except.ok.inj h)
      obtain ⟨rfl, rfl⟩ := Prod.mk.inj hpair
      have hreached' : Reached db₁ := reached_call (.claim _ _) hreached hclaim
      obtain ⟨c, hc, hid, hprior, hdesired⟩ := changeConfigurations_mem
        (show (p, d) ∈ changeConfigurations db₁ request.changeId by
          rw [hone]
          exact List.mem_singleton.mpr rfl)
      refine ⟨hreached', c, hc, ?_, hprior, hdesired⟩
      -- the claimed row is the one of this id
      obtain ⟨_, _, hl⟩ := hreached'
      unfold v9ControllerRuntimeConfigurationChange at hclaim
      obtain ⟨c₀, hc₀, hopens⟩ := updateChange_any hclaim
      obtain ⟨hid₀, -, hnonce⟩ := of_decide_eq_true hopens
      have hin : ({ c₀ with state := .applying, stage := .preflight } : ConfigurationChange) ∈
          db₁.changes := by
        rw [updateChange_ok hclaim]
        exact mem_updateWhere.mpr ⟨c₀, hc₀, by rw [if_pos hopens]⟩
      rw [hl.changes.eq hc hin (hid.trans hid₀.symm)]
      exact decide_eq_true ⟨hid₀, rfl, hnonce⟩
    · exact absurd h (by simp)

/-- A change that is underway takes every stage. -/
theorem advance_underway (h : Underway request prior desired db) {stage : ControllerStage}
    (hstage : (controllerStage stage.value).isSome = true) :
    ∃ db', advance request stage db = .ok db' ∧ Underway request prior desired db' := by
  obtain ⟨hreached, c, hc, hopens, hprior, hdesired⟩ := h
  obtain ⟨st, hst⟩ := Option.isSome_iff_exists.mp hstage
  have hadvance : advance request stage db = .ok { db with
      changes := updateWhere (ConfigurationChange.opens request.changeId .applying
        request.nonceHash) (fun c => { c with stage := st }) db.changes } := by
    unfold advance v9ControllerAdvanceRuntimeConfiguration updateChange
    rw [hst]
    exact if_pos (List.any_eq_true.mpr ⟨c, hc, hopens⟩)
  refine ⟨_, hadvance, reached_call (.advance _ _ _) hreached hadvance,
    { c with stage := st }, ?_, hopens, hprior, hdesired⟩
  exact mem_updateWhere.mpr ⟨c, hc, by rw [if_pos hopens]⟩

/-! ## The end -/

/-- What a result leaves effective. -/
def resultOf (prior desired : Configuration) (state : ChangeState) : Configuration :=
  if state = .effective then desired else prior

/-- The revisions after a result: flipped to the desired one, or as they were. -/
theorem revisions_after {revisions : List ConfigurationRevision} {prior' desired' : RevisionId}
    (hkeyed : Keyed (·.id) revisions)
    (hnow : (revisions.filter (·.effective)).map (·.id) = [prior'])
    (hprior : ∃ r ∈ revisions, r.id = prior' ∧ r.configuration = prior)
    (hdesired : ∃ r ∈ revisions, r.id = desired' ∧ r.configuration = desired)
    (state : ChangeState) :
    ∃ after, after = (if state = .effective then flipEffective prior' desired' revisions
        else revisions) ∧
      Keyed (·.id) after ∧ ∃ id, (after.filter (·.effective)).map (·.id) = [id] ∧
        ∃ r ∈ after, r.id = id ∧ r.configuration = resultOf prior desired state := by
  refine ⟨_, rfl, ?_⟩
  unfold resultOf
  by_cases heffective : state = .effective
  · obtain ⟨r, hr, hid, hconfiguration⟩ := hdesired
    rw [if_pos heffective, if_pos heffective]
    refine ⟨?_, desired', flip_effective hkeyed hnow ⟨r, hr, hid⟩, flipRow prior' desired' r, ?_,
      hid, hconfiguration⟩
    · unfold Keyed
      rw [flip_ids]
      exact hkeyed
    · rw [flipEffective_eq]
      exact List.mem_map_of_mem hr
  · rw [if_neg heffective, if_neg heffective]
    exact ⟨hkeyed, prior', hnow, hprior⟩

/-- A change that is underway takes every result. -/
theorem finish_ended (h : Underway request prior desired db) {result : String}
    {reasonCode : Option String} {state : ChangeState} {stage : ChangeStage}
    (hresult : controllerResult result = some (state, stage)) (hended : state.isActive = false)
    (hreason : isReasonCode (reasonCode.getD "configuration_applied") = true) :
    ∃ db', finish request result reasonCode db = .ok db' ∧
      Ended request (resultOf prior desired state) db' := by
  obtain ⟨⟨effected, applications, hl⟩, c, hc, hopens, hprior, hdesired⟩ := h
  have hactive := opens_active rfl hopens
  have hid := (of_decide_eq_true hopens).1
  have hnow : (db.revisions.filter (·.effective)).map (·.id) = [c.priorRevisionId] := by
    rw [(hl.prior c hc hactive).1]
    exact hl.effective
  have hfind : db.changes.find? (ConfigurationChange.opens request.changeId .applying
      request.nonceHash) = some c := by
    cases hf : db.changes.find? (ConfigurationChange.opens request.changeId .applying
        request.nonceHash) with
    | none => exact absurd hopens (List.find?_eq_none.mp hf c hc)
    | some d =>
      have hd : d.opens request.changeId .applying request.nonceHash = true := List.find?_some hf
      rw [hl.single d (List.mem_of_find?_eq_some hf) c hc (opens_active rfl hd) hactive]
  obtain ⟨after, hafter, hkeyed, id, hone, hhas⟩ :=
    revisions_after hl.revisions hnow hprior hdesired state
  have hlength := congrArg List.length hone
  rw [List.length_map, List.length_singleton] at hlength
  have hfinish : finish request result reasonCode db = .ok { db with
      revisions := after
      changes := updateWhere (fun c => c.id = request.changeId) (fun c => { c with
        state := state
        stage := stage
        reasonCode := some (reasonCode.getD "configuration_applied")
        controllerNonceHash := .digest 0 }) db.changes } := by
    unfold finish v9ControllerFinishRuntimeConfiguration
    rw [hfind, hresult]
    simp only [Option.any_some, hreason, ← hafter, hlength]
    rfl
  refine ⟨_, hfinish, reached_call (.finish _ _ _ _) ⟨effected, applications, hl⟩ hfinish,
    ?_, effectiveIs_of hkeyed hone hhas⟩
  refine ⟨_, mem_updateWhere.mpr ⟨c, hc, rfl⟩, ?_⟩
  rw [if_pos (decide_eq_true hid)]
  exact ⟨hid, hended⟩

/-- A finished change takes no stage and no result. -/
theorem Ended.refused (h : Ended request configuration db) :
    (∀ stage, ∃ e, advance request stage db = .error e) ∧
      ∀ result reasonCode, ∃ e, finish request result reasonCode db = .error e := by
  obtain ⟨⟨effected, applications, hl⟩, ⟨c, hc, hid, hended⟩, -⟩ := h
  have hnames : ∀ call : ConfigurationCall, call.names request.changeId →
      ∃ e, callConfiguration (fun _ => 0) db call = .error e := fun call hcall =>
    finished_refused (fun _ => 0) hl hc hended (hid ▸ hcall)
  exact ⟨fun stage => hnames (.advance _ request.nonceHash stage.value) rfl,
    fun result reasonCode => hnames (.finish _ request.nonceHash result _) rfl⟩

end LocalRag.Admin
