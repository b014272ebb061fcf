import OpenOJ.Application.Pipeline
import OpenOJ.Service.Lengths
import OpenOJ.Storage.Creation

/-!
# The development executor

The executor of a development deployment executes nothing: every stage succeeds, and the check stage
decides for the one point there is (`developmentMock`). What it is good for is that the rest can be
tried with it, and for that it must not fail: it refuses nothing but capabilities other than its
own, and its results can always be submitted, as results that are not eligible for production.

* `runs_developmentMock`: its record of an evaluation is one call for each stage of the plan;
* `developmentMock_error_iff`: it fails exactly for requests that require more than batch judging;
* `developmentMock_accepts`: otherwise the result accepts the submission (`Accepts`), with no usage,
  for the request and by its node;
* `developmentMock_encodable`: and it can be encoded.

`developmentMock_evaluates` has the three together, and `developmentMock_obtains` states what a node
with this executor can be relied on for.
-/

namespace OpenOJ

open Outcome

/-- `DevelopmentMockExecutor`. -/
structure DevelopmentMockExecutor where
  nodeId : NodeId

/-- The stages of `DevelopmentMockExecutor`. -/
def developmentMock : StageExecutor DevelopmentMockExecutor where
  kind _ := .developmentMock
  productionEligible _ := false
  nodeId executor := some executor.nodeId
  supports _ capability := decide (capability.value = "algorithm.batch")
  execute context executor :=
    let decision : Option Decision := match Score.new 1 1 with
      | .ok score => (Decision.new .accepted score).toOption
      | .error _ => none
    (.succeeded .default [] [] (if context.stage = .check then decision else none), executor)

/-- `DevelopmentMockExecutor::execute`, of a request. -/
def DevelopmentMockExecutor.execute (executor : DevelopmentMockExecutor)
    (request : EvaluationRequest) : Except ApplicationError EvaluationResult :=
  (evaluate developmentMock request executor).1

/-! ### What it hands over -/

/-- What it hands over for a stage. -/
def mockExecution (stage : StageKind) : StageExecution :=
  .succeeded .default [] [] (if stage = .check then some ⟨.accepted, onePoint, .inl rfl⟩ else none)

variable {executor : DevelopmentMockExecutor} {request : EvaluationRequest}

theorem developmentMock_execute (context : StageContext) :
    developmentMock.execute context executor = (mockExecution context.stage, executor) := by
  obtain ⟨request, stage⟩ := context
  cases stage <;> rfl

theorem runs_developmentMock {calls : List StageCall} {final : DevelopmentMockExecutor}
    (h : developmentMock.Runs calls executor final) :
    ∀ call ∈ calls, call.outcome = mockExecution call.context.stage := by
  induction calls with
  | nil => exact fun _ hmem => absurd hmem List.not_mem_nil
  | cons call calls ih =>
    obtain ⟨hfirst, hrest⟩ := h
    rw [developmentMock_execute] at hfirst hrest
    exact List.forall_mem_cons.mpr ⟨hfirst.symm, ih hrest⟩

theorem usageOf_developmentMock {calls : List StageCall}
    (h : ∀ call ∈ calls, call.outcome = mockExecution call.context.stage) :
    usageOf calls = ⟨0, 0, 0, 0⟩ := by
  induction calls with
  | nil => rfl
  | cons call calls ih =>
    obtain ⟨hcall, hcalls⟩ := List.forall_mem_cons.mp h
    have hzero : call.outcome.usage = .default := by rw [hcall]; rfl
    unfold usageOf at ih ⊢
    rw [List.foldl_cons, hzero]
    exact ih hcalls

/-- Nothing that it hands over is refused. -/
theorem acceptable_developmentMock {calls : List StageCall}
    (h : ∀ call ∈ calls, call.outcome = mockExecution call.context.stage) : Acceptable calls where
  decides call hmem := by
    rw [StageCall.Decides, h call hmem, mockExecution]
    by_cases hcheck : call.context.stage = .check <;> simp [hcheck]
  fits call hmem := by
    rw [StageCall.Fits, h call hmem, mockExecution]
    cases call.context.stage <;> trivial
  withinLimits call hmem := by
    refine ⟨?_, ?_⟩ <;> rw [h call hmem] <;> exact Nat.zero_le _
  usage := by
    rw [usageOf_developmentMock h]
    exact ⟨Nat.zero_le _, Nat.zero_le _, Nat.zero_le _, Nat.zero_le _⟩

/-! ### What an evaluation with it answers -/

/-- The outcomes of the plan, whatever the request. -/
def mockEntries : List StageEntry :=
  algorithmBatchStages.map fun stage => ⟨stage, some (mockExecution stage)⟩

theorem outcomes_developmentMock :
    developmentMock.outcomes request request.plan.stages executor = mockEntries := by
  rw [request.plan.canonical]
  rfl

/-- An evaluation fails exactly when it requires what is not supported. -/
theorem developmentMock_error_iff :
    (∃ error, executor.execute request = .error error) ↔
      ∃ capability ∈ request.requiredCapabilities, capability.value ≠ "algorithm.batch" := by
  rw [DevelopmentMockExecutor.execute]
  constructor
  · rintro ⟨error, herror⟩
    by_contra hbatch
    -- with all that is required supported it starts, and nothing that it hands over is refused
    have hsupports : ∀ capability ∈ request.requiredCapabilities,
        developmentMock.supports executor capability = true := by
      intro capability hrequired
      by_contra hunsupported
      exact hbatch ⟨capability, hrequired, fun hvalue => hunsupported (decide_eq_true hvalue)⟩
    obtain ⟨provenance, hprovenance⟩ : ∃ provenance, ExecutionProvenance.new .developmentMock
        false request.runtime.digest (some executor.nodeId) = .ok provenance := by
      unfold ExecutionProvenance.new
      simp
    obtain ⟨-, -, hanswer⟩ :=
      settles_of_start (start_eq_ok.mpr ⟨hsupports, provenance, hprovenance, rfl⟩)
    rw [herror] at hanswer
    exact hanswer.1 (acceptable_developmentMock
      (runs_developmentMock (runs_calls developmentMock request executor)))
  · rintro ⟨capability, hrequired, hvalue⟩
    rcases hstart : developmentMock.start request executor with error | run
    · exact ⟨error, by rw [evaluate_eq, hstart]⟩
    · have hsupports := (start_eq_ok.mp hstart).1 capability hrequired
      exact absurd (of_decide_eq_true hsupports) hvalue

/-- What a development deployment reports: one point of one, and nothing to rely on. -/
structure Accepts (executor : DevelopmentMockExecutor) (result : EvaluationResult) : Prop where
  status : result.status = .completed
  verdict : result.verdict = .accepted
  score : result.score = onePoint
  executorKind : result.provenance.executorKind = .developmentMock
  ineligible : result.provenance.productionEligible = false
  nodeId : result.provenance.nodeId = some executor.nodeId

theorem developmentMock_accepts {result : EvaluationResult}
    (h : executor.execute request = .ok result) : Accepts executor result := by
  obtain ⟨provenance, hprovenance, hleads⟩ := leadsTo_of_evaluate h
  obtain ⟨hkind, heligible, -, hnode⟩ := ExecutionProvenance.new_eq_ok.mp hprovenance
  have hending := hleads.ending
  rw [outcomes_developmentMock] at hending
  have hmock : ending none mockEntries = some ⟨.completed, .accepted, onePoint⟩ := by decide
  obtain ⟨hstatus, hverdict, hscore⟩ :=
    Terminal.mk.inj (Option.some.inj (hmock.symm.trans hending))
  have hprov : result.provenance = provenance := hleads.provenance
  refine ⟨hstatus.symm, hverdict.symm, hscore.symm, ?_, ?_, ?_⟩
  · rw [hprov]
    exact hkind
  · rw [hprov]
    exact heligible
  · rw [hprov]
    exact hnode

section Codec

variable [Wire]

/-- Its results can always be submitted. -/
theorem developmentMock_encodable (hl : LosslessResults) {result : EvaluationResult}
    (h : executor.execute request = .ok result) :
    ∃ payload, encodeEvaluationResult result = .ok payload := by
  refine Sendable.exists_encode hl ⟨?_, fun terminal hterminal => ?_⟩ h
  · rw [outcomes_developmentMock]
    decide
  · have hentries : (mockEntries.map StageEntry.length).sum ≤ 2000 := by decide +kernel
    have hlength := resultLength_le request .developmentMock false (some executor.nodeId) terminal
      (by decide : mockEntries.length ≤ 5)
    rw [outcomes_developmentMock]
    exact hlength.trans ((Nat.add_le_add_left hentries 5000).trans (by decide))

/-- **The development executor** fails exactly for requests that require more than batch judging,
and otherwise obtains a result that can be submitted, accepts, and is not eligible for
production. -/
theorem developmentMock_evaluates (hl : LosslessResults) (executor : DevelopmentMockExecutor)
    (request : EvaluationRequest) :
    ((∃ error, executor.execute request = .error error) ↔
      ∃ capability ∈ request.requiredCapabilities, capability.value ≠ "algorithm.batch") ∧
      ∀ result, executor.execute request = .ok result →
        Accepts executor result ∧ ∃ payload, encodeEvaluationResult result = .ok payload :=
  ⟨developmentMock_error_iff, fun _ h =>
    ⟨developmentMock_accepts h, developmentMock_encodable hl h⟩⟩

end Codec

section Json

attribute [local instance] jsonWire

/-- Of the fixture the development executor obtains a result. -/
theorem developmentMock_evaluates_fixture :
    ∃ result payload, (DevelopmentMockExecutor.mk fixtureClaim.nodeId).execute fixtureRequest =
      .ok result ∧ Accepts ⟨fixtureClaim.nodeId⟩ result ∧
        encodeEvaluationResult result = .ok payload := by
  obtain ⟨hfails, hobtains⟩ := developmentMock_evaluates (WireType.json_lossless _)
    ⟨fixtureClaim.nodeId⟩ fixtureRequest
  rcases hexecute : (DevelopmentMockExecutor.mk fixtureClaim.nodeId).execute fixtureRequest with
    error | result
  · obtain ⟨capability, hrequired, hne⟩ := hfails.mp ⟨error, hexecute⟩
    have hbatch : ∀ c ∈ fixtureRequest.requiredCapabilities, c.value = "algorithm.batch" := by
      decide +kernel
    exact absurd (hbatch capability hrequired) hne
  · obtain ⟨haccepts, payload, hencode⟩ := hobtains result hexecute
    exact ⟨result, payload, rfl, haccepts, hencode⟩

end Json
end OpenOJ
