import LocalRag.Runtime.Protocol

/-!
# The coordinator's endpoints — one request made from another

`/embed`, `/rerank` and `/generate/stream` of `app/runtime/coordinator.py` take a request with
a schema of its own and make a `CoordinatorRequest` of it, which has a schema too
(`app/runtime/protocol.py`) and raises when it is not met: the caller gets an internal error
before anything was scheduled. The two levels agree on every bound but one. A rerank request
has a query and up to 32 passages, and the request made from it lists the query and the
passages as its inputs, of which 32 are allowed (`coordinatorRequest_ok_iff`).

Mirroring notes.
* `pydantic` checks the fields before the validator of the model; of several errors the first
  is kept, a field's by its name.
-/

namespace LocalRag.Runtime

/-! ## `CoordinatorRequest` -/

inductive RequestStage where
  | generation | rerank | embedding
deriving Repr, DecidableEq

inductive ValidationError where
  | field (name : String)
  | value (message : String)
deriving Repr, DecidableEq

structure CoordinatorRequest where
  requestId : String
  stage : RequestStage
  priority : Priority
  inputs : List String
  think : Bool
deriving DecidableEq

/-- `Field(pattern=REQUEST_ID_PATTERN, max_length=64)`. -/
def requestIdValid (requestId : String) : Bool :=
  requestIdMatches requestId.toList ∧ requestId.length ≤ 64

/-- `CoordinatorRequest(...)`: the fields, then `validate_inputs`. -/
def CoordinatorRequest.validate (r : CoordinatorRequest) : Except ValidationError CoordinatorRequest :=
  if ¬ requestIdValid r.requestId then .error (.field "request_id")
  else if ¬ (1 ≤ r.inputs.length ∧ r.inputs.length ≤ 32) then .error (.field "inputs")
  else if r.inputs.any fun value => value = "" ∨ 32768 < value.length then
    .error (.value "inputs must contain 1-32768 characters")
  else if r.stage = .generation ∧ r.inputs.length ≠ 1 then
    .error (.value "generation requires exactly one input")
  else if r.stage = .rerank ∧ r.inputs.length < 2 then
    .error (.value "rerank requires a query and at least one passage")
  else .ok r

/-! ## The endpoints' requests -/

structure RerankRequest where
  requestId : String
  priority : Priority
  query : String
  passages : List String

/-- The fields' bounds and `validate_passages`. -/
def RerankRequest.valid (r : RerankRequest) : Bool :=
  requestIdValid r.requestId ∧ 1 ≤ r.query.length ∧ r.query.length ≤ 32768 ∧
    1 ≤ r.passages.length ∧ r.passages.length ≤ 32 ∧
    r.passages.all fun passage => 1 ≤ passage.length ∧ passage.length ≤ 32768

structure GenerateRequest where
  requestId : String
  priority : Priority
  prompt : String
  think : Bool

/-- The fields' bounds. -/
def GenerateRequest.valid (r : GenerateRequest) : Bool :=
  requestIdValid r.requestId ∧ 1 ≤ r.prompt.length ∧ r.prompt.length ≤ 32768

/-- A request to one of the three endpoints. -/
inductive EndpointRequest where
  | embed (request : EmbedRequest)
  | rerank (request : RerankRequest)
  | generate (request : GenerateRequest)

namespace EndpointRequest

/-- The endpoint's schema accepts it. -/
def accepted : EndpointRequest → Bool
  | embed r => r.valid
  | rerank r => r.valid
  | generate r => r.valid

/-- The request the endpoint makes of it. -/
def coordinatorRequest : EndpointRequest → Except ValidationError CoordinatorRequest
  | embed r => CoordinatorRequest.validate ⟨r.requestId, .embedding, r.priority, r.texts, true⟩
  | rerank r =>
    CoordinatorRequest.validate ⟨r.requestId, .rerank, r.priority, r.query :: r.passages, true⟩
  | generate r =>
    CoordinatorRequest.validate ⟨r.requestId, .generation, r.priority, [r.prompt], r.think⟩

end EndpointRequest

/-! ## What passes both levels -/

/-- A list of inputs within the bounds of both levels. -/
def InputsOk (stage : RequestStage) (inputs : List String) : Prop :=
  (1 ≤ inputs.length ∧ inputs.length ≤ 32) ∧
    (∀ value ∈ inputs, 1 ≤ value.length ∧ value.length ≤ 32768) ∧
    (stage = .generation → inputs.length = 1) ∧ (stage = .rerank → 2 ≤ inputs.length)

theorem validate_ok_iff (r : CoordinatorRequest) :
    (∃ made, r.validate = .ok made) ↔ requestIdValid r.requestId = true ∧ InputsOk r.stage r.inputs := by
  have hvalues : (r.inputs.any fun value => value = "" ∨ 32768 < value.length) = true ↔
      ¬ ∀ value ∈ r.inputs, 1 ≤ value.length ∧ value.length ≤ 32768 := by
    rw [List.any_eq_true, not_forall]
    refine exists_congr fun value => ?_
    rw [Classical.not_imp, decide_eq_true_eq, ← String.length_eq_zero_iff]
    refine and_congr_right fun _ => ?_
    omega
  unfold CoordinatorRequest.validate InputsOk
  split
  next hid => exact iff_of_false (by simp) fun h => hid h.1
  next hid =>
    have hid' := not_not.mp hid
    split
    next hcount => exact iff_of_false (by simp) fun h => hcount h.2.1
    next hcount =>
      have hcount' := not_not.mp hcount
      split
      next hany => exact iff_of_false (by simp) fun h => hvalues.mp hany h.2.2.1
      next hany =>
        have hall := not_not.mp ((not_congr hvalues).mp hany)
        split
        next hone => exact iff_of_false (by simp) fun h => hone.2 (h.2.2.2.1 hone.1)
        next hone =>
          split
          next htwo =>
            refine iff_of_false (by simp) fun h => ?_
            have hle := h.2.2.2.2 htwo.1
            omega
          next htwo =>
            refine iff_of_true ⟨r, rfl⟩ ⟨hid', hcount', hall, fun hstage => ?_, fun hstage => ?_⟩
            · by_contra hne
              exact hone ⟨hstage, hne⟩
            · by_contra hlt
              exact htwo ⟨hstage, by omega⟩

/-- An accepted request is made into one that its own schema accepts, unless it is a rerank
request of 32 passages. -/
theorem coordinatorRequest_ok_iff (request : EndpointRequest) (h : request.accepted = true) :
    (∃ made, request.coordinatorRequest = .ok made) ↔
      ∀ r, request = .rerank r → r.passages.length ≤ 31 := by
  cases request with
  | embed r =>
    unfold EndpointRequest.accepted EmbedRequest.valid at h
    rw [decide_eq_true_eq] at h
    obtain ⟨hid, hlength, hmin, hmax, htexts⟩ := h
    refine iff_of_true ?_ fun r' hr' => absurd hr' (by simp)
    refine (validate_ok_iff _).mpr ⟨decide_eq_true ⟨hid, hlength⟩, ⟨hmin, hmax⟩, ?_, ?_, ?_⟩
    · simpa only [List.all_eq_true, decide_eq_true_eq] using htexts
    · intro hstage
      exact absurd hstage (by simp)
    · intro hstage
      exact absurd hstage (by simp)
  | generate r =>
    unfold EndpointRequest.accepted GenerateRequest.valid at h
    rw [decide_eq_true_eq] at h
    obtain ⟨hid, hmin, hmax⟩ := h
    refine iff_of_true ?_ fun r' hr' => absurd hr' (by simp)
    refine (validate_ok_iff _).mpr ⟨hid, ⟨Nat.le_refl 1, by simp⟩, ?_, fun _ => rfl, ?_⟩
    · intro value hvalue
      rw [List.mem_singleton.mp hvalue]
      exact ⟨hmin, hmax⟩
    · intro hstage
      exact absurd hstage (by simp)
  | rerank r =>
    unfold EndpointRequest.accepted RerankRequest.valid at h
    rw [decide_eq_true_eq] at h
    obtain ⟨hid, hquery, hquery', hmin, -, hpassages⟩ := h
    rw [List.all_eq_true] at hpassages
    unfold EndpointRequest.coordinatorRequest
    rw [validate_ok_iff]
    constructor
    · -- the query is one of the 32 inputs
      intro hok r' hr'
      obtain rfl := EndpointRequest.rerank.inj hr'
      have hcount := hok.2.1.2
      rw [List.length_cons] at hcount
      omega
    · intro hfew
      have hcount := hfew r rfl
      refine ⟨hid, ⟨?_, ?_⟩, ?_, ?_, ?_⟩
      · rw [List.length_cons]
        omega
      · rw [List.length_cons]
        omega
      · intro value hvalue
        cases List.mem_cons.mp hvalue with
        | inl hq =>
          rw [hq]
          exact ⟨hquery, hquery'⟩
        | inr hp => exact of_decide_eq_true (hpassages value hp)
      · intro hstage
        exact absurd hstage (by simp)
      · intro _
        rw [List.length_cons]
        omega

/-- A rerank request of `count` passages. -/
def passagesRequest (count : Nat) : EndpointRequest :=
  .rerank ⟨"r1", .interactive, "query", List.replicate count "passage"⟩

theorem coordinatorRequest_ok_31 : ∃ made, (passagesRequest 31).coordinatorRequest = .ok made :=
  (coordinatorRequest_ok_iff (passagesRequest 31) (by decide)).mpr fun r hr => by
    obtain rfl := EndpointRequest.rerank.inj hr
    decide

/-- 32 passages are accepted, and are one input too many. -/
theorem rerank_refused :
    (passagesRequest 32).accepted = true ∧
      (passagesRequest 32).coordinatorRequest = .error (.field "inputs") ∧
      ¬ ∀ request : EndpointRequest, request.accepted = true →
        ∃ made, request.coordinatorRequest = .ok made := by
  have haccepted : (passagesRequest 32).accepted = true := by decide
  have herror : (passagesRequest 32).coordinatorRequest = .error (.field "inputs") := by decide
  refine ⟨haccepted, herror, fun hall => ?_⟩
  obtain ⟨made, hmade⟩ := hall _ haccepted
  rw [herror] at hmade
  exact absurd hmade (by simp)

end LocalRag.Runtime
