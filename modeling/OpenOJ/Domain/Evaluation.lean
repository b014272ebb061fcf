import OpenOJ.Domain.Artifact

/-!
# Evaluation requests

A request names an evaluation, one attempt of it, and the immutable references the attempt runs
against: a problem version, a submission with its source, and a runtime. It has a plan of stages
(`EvaluationPlan`, of which there is one), a resource policy within hard limits (`ResourcePolicy`)
and the capabilities that a node needs for it.

`EvaluationRequest.new` is the only way to build one, so every request carries its bounds:

* `EvaluationRequestParts.validate_eq_ok`: what its checks come to;
* `ResourcePolicy.bounds`: each limit of a policy is at least one and at most the hard limit;
* `EvaluationPlan.tryAlgorithmBatch_stages`: the plan's five stages, in order.

`EvaluationRequest.withNextAttempt` rebinds a request to the attempt after it. It changes the
attempt's id, its number and its key, and nothing else (`EvaluationRequest.withNextAttempt_eq_ok`),
and it fails only at the last attempt number, where there is no next one
(`EvaluationRequest.exists_withNextAttempt`, `EvaluationRequest.withNextAttempt_last`).
-/

namespace OpenOJ

open Outcome

def maxCapabilities : Nat := 32

def maxStages : Nat := 32

def maxCpuTimeMs : Nat := 86400000

def maxWallTimeMs : Nat := 86400000

def maxMemoryBytes : Nat := 1099511627776

def maxOutputBytes : Nat := 1073741824

def maxProcessLimit : Nat := 65535

/-- `u32::MAX`. -/
def u32Max : Nat := 4294967295

/-! ### Plan and policy -/

inductive StageKind where
  | prepare
  | build
  | run
  | check
  | aggregate
  deriving DecidableEq, Repr

def StageKind.asStr : StageKind → String
  | .prepare => "prepare"
  | .build => "build"
  | .run => "run"
  | .check => "check"
  | .aggregate => "aggregate"

inductive EvaluationProfile where
  | algorithmBatch
  deriving DecidableEq, Repr

def EvaluationProfile.asStr : EvaluationProfile → String
  | .algorithmBatch => "algorithm_batch"

/-- `ALGORITHM_BATCH_STAGES`. -/
def algorithmBatchStages : List StageKind := [.prepare, .build, .run, .check, .aggregate]

/-- An evaluation plan; its stages are the canonical ones. -/
structure EvaluationPlan where
  profile : EvaluationProfile
  stages : List StageKind
  canonical : stages = algorithmBatchStages
  deriving DecidableEq

/-- `EvaluationPlan::try_algorithm_batch`. -/
def EvaluationPlan.tryAlgorithmBatch (stages : List StageKind) :
    Except DomainError EvaluationPlan :=
  if maxStages < stages.length then
    .error (.tooManyItems "plan.stages" maxStages stages.length)
  else if h : stages = algorithmBatchStages then .ok ⟨.algorithmBatch, stages, h⟩
  else .error .invalidPlan

@[simp]
theorem EvaluationPlan.tryAlgorithmBatch_stages (plan : EvaluationPlan) :
    EvaluationPlan.tryAlgorithmBatch plan.stages = .ok plan := by
  obtain ⟨profile, stages, rfl⟩ := plan
  cases profile
  rfl

inductive NetworkPolicy where
  | denied
  deriving DecidableEq, Repr

def NetworkPolicy.asStr : NetworkPolicy → String
  | .denied => "denied"

/-- `require_range`. -/
def requireRange (field : String) (actual minimum maximum : Nat) : Except DomainError Unit :=
  if minimum ≤ actual ∧ actual ≤ maximum then .ok ()
  else .error (.outOfRange field minimum maximum actual)

@[simp]
theorem requireRange_eq_ok {field : String} {actual minimum maximum : Nat} {u : Unit} :
    requireRange field actual minimum maximum = .ok u ↔ minimum ≤ actual ∧ actual ≤ maximum := by
  unfold requireRange
  split <;> simp [*]

/-- The values of a resource policy, before their bounds are checked. -/
structure ResourcePolicyParts where
  cpuTimeMs : Nat
  wallTimeMs : Nat
  memoryBytes : Nat
  outputBytes : Nat
  processLimit : Nat
  network : NetworkPolicy
  deriving DecidableEq

/-- The range checks of `ResourcePolicy::new`. -/
def ResourcePolicyParts.validate (parts : ResourcePolicyParts) : Except DomainError Unit := do
  requireRange "cpu_time_ms" parts.cpuTimeMs 1 maxCpuTimeMs
  requireRange "wall_time_ms" parts.wallTimeMs 1 maxWallTimeMs
  requireRange "memory_bytes" parts.memoryBytes 1 maxMemoryBytes
  requireRange "output_bytes" parts.outputBytes 1 maxOutputBytes
  requireRange "process_limit" parts.processLimit 1 maxProcessLimit

/-- A bounded execution policy. -/
structure ResourcePolicy extends ResourcePolicyParts where
  valid : toResourcePolicyParts.validate = .ok ()
  deriving DecidableEq

/-- `ResourcePolicy::new`. -/
def ResourcePolicy.new (parts : ResourcePolicyParts) : Except DomainError ResourcePolicy :=
  match h : parts.validate with
  | .ok () => .ok ⟨parts, h⟩
  | .error e => .error e

@[simp]
theorem ResourcePolicy.new_parts (policy : ResourcePolicy) :
    ResourcePolicy.new policy.toResourcePolicyParts = .ok policy := by
  unfold ResourcePolicy.new
  split
  · rfl
  · rename_i h
    rw [policy.valid] at h
    cases h

/-- What a policy's range checks say. -/
theorem ResourcePolicy.bounds (policy : ResourcePolicy) :
    (1 ≤ policy.cpuTimeMs ∧ policy.cpuTimeMs ≤ maxCpuTimeMs) ∧
      (1 ≤ policy.wallTimeMs ∧ policy.wallTimeMs ≤ maxWallTimeMs) ∧
        (1 ≤ policy.memoryBytes ∧ policy.memoryBytes ≤ maxMemoryBytes) ∧
          (1 ≤ policy.outputBytes ∧ policy.outputBytes ≤ maxOutputBytes) ∧
            1 ≤ policy.processLimit ∧ policy.processLimit ≤ maxProcessLimit := by
  have h := policy.valid
  simp only [ResourcePolicyParts.validate, bind_eq_ok, requireRange_eq_ok, exists_const] at h
  exact h

/-! ### References -/

structure ProblemVersionRef where
  problemId : ProblemId
  problemVersionId : ProblemVersionId
  digest : ContentDigest
  deriving DecidableEq

structure RuntimeRef where
  runtimeId : RuntimeId
  digest : ContentDigest
  deriving DecidableEq

structure SubmissionRef where
  submissionId : SubmissionId
  source : ArtifactRef
  deriving DecidableEq

/-! ### Requests -/

structure EvaluationRequestParts where
  requestId : RequestId
  idempotencyKey : IdempotencyKey
  evaluationId : EvaluationId
  attemptId : AttemptId
  attemptNumber : Nat
  problemVersion : ProblemVersionRef
  submission : SubmissionRef
  runtime : RuntimeRef
  plan : EvaluationPlan
  policy : ResourcePolicy
  requiredCapabilities : List Capability
  deriving DecidableEq

/-- The checks of `EvaluationRequest::new`. -/
def EvaluationRequestParts.validate (parts : EvaluationRequestParts) :
    Except DomainError Unit := do
  requireRange "attempt_number" parts.attemptNumber 1 u32Max
  refuseIf (maxCapabilities < parts.requiredCapabilities.length)
    (.tooManyItems "required_capabilities" maxCapabilities parts.requiredCapabilities.length)
  refuseIf (¬parts.requiredCapabilities.Nodup) (.duplicateItem "required_capabilities")

/-- A validated evaluation request. -/
structure EvaluationRequest extends EvaluationRequestParts where
  valid : toEvaluationRequestParts.validate = .ok ()
  deriving DecidableEq

/-- `EvaluationRequest::new`. -/
def EvaluationRequest.new (parts : EvaluationRequestParts) :
    Except DomainError EvaluationRequest :=
  match h : parts.validate with
  | .ok () => .ok ⟨parts, h⟩
  | .error e => .error e

theorem EvaluationRequestParts.validate_eq_ok {parts : EvaluationRequestParts} :
    parts.validate = .ok () ↔
      (1 ≤ parts.attemptNumber ∧ parts.attemptNumber ≤ u32Max) ∧
        parts.requiredCapabilities.length ≤ maxCapabilities ∧
          parts.requiredCapabilities.Nodup := by
  simp [EvaluationRequestParts.validate, bind_eq_ok]

theorem EvaluationRequest.new_eq_ok {parts : EvaluationRequestParts}
    {request : EvaluationRequest} :
    EvaluationRequest.new parts = .ok request ↔ request.toEvaluationRequestParts = parts := by
  unfold EvaluationRequest.new
  split
  · rename_i h
    simp only [Except.ok.injEq]
    constructor
    · rintro rfl
      rfl
    · rintro rfl
      rfl
  · rename_i h
    refine iff_of_false (by simp) ?_
    rintro rfl
    rw [request.valid] at h
    cases h

@[simp]
theorem EvaluationRequest.new_parts (request : EvaluationRequest) :
    EvaluationRequest.new request.toEvaluationRequestParts = .ok request :=
  EvaluationRequest.new_eq_ok.mpr rfl

/-- `EvaluationRequest::with_next_attempt`. -/
def EvaluationRequest.withNextAttempt (request : EvaluationRequest)
    (nextAttemptId : AttemptId) (nextIdempotencyKey : IdempotencyKey) :
    Except DomainError EvaluationRequest :=
  -- `checked_add` on a `u32`
  if request.attemptNumber + 1 ≤ u32Max then
    EvaluationRequest.new
      { request.toEvaluationRequestParts with
        idempotencyKey := nextIdempotencyKey
        attemptId := nextAttemptId
        attemptNumber := request.attemptNumber + 1 }
  else .error (.outOfRange "attempt_number" 1 u32Max request.attemptNumber)

/-- The next attempt's request differs from this one in the attempt alone. -/
theorem EvaluationRequest.withNextAttempt_eq_ok {request next : EvaluationRequest}
    {nextAttemptId : AttemptId} {nextIdempotencyKey : IdempotencyKey} :
    request.withNextAttempt nextAttemptId nextIdempotencyKey = .ok next ↔
      next.toEvaluationRequestParts =
        { request.toEvaluationRequestParts with
          idempotencyKey := nextIdempotencyKey
          attemptId := nextAttemptId
          attemptNumber := request.attemptNumber + 1 } := by
  unfold EvaluationRequest.withNextAttempt
  split
  · exact EvaluationRequest.new_eq_ok
  · rename_i h
    refine iff_of_false (by simp) fun heq => h ?_
    have hbound := (EvaluationRequestParts.validate_eq_ok.mp next.valid).1.2
    rw [heq] at hbound
    exact hbound

/-- **Totality short of the last number.** Every attempt but the one numbered `u32::MAX`
has a next one. -/
theorem EvaluationRequest.exists_withNextAttempt {request : EvaluationRequest}
    (h : request.attemptNumber < u32Max) (nextAttemptId : AttemptId)
    (nextIdempotencyKey : IdempotencyKey) :
    ∃ next, request.withNextAttempt nextAttemptId nextIdempotencyKey = .ok next := by
  obtain ⟨hnumber, hlength, hnodup⟩ :=
    EvaluationRequestParts.validate_eq_ok.mp request.valid
  have hvalid : EvaluationRequestParts.validate
      { request.toEvaluationRequestParts with
        idempotencyKey := nextIdempotencyKey
        attemptId := nextAttemptId
        attemptNumber := request.attemptNumber + 1 } = .ok () :=
    EvaluationRequestParts.validate_eq_ok.mpr ⟨⟨by simp, h⟩, hlength, hnodup⟩
  exact ⟨⟨_, hvalid⟩, EvaluationRequest.withNextAttempt_eq_ok.mpr rfl⟩

/-- The attempt numbered `u32::MAX` has no next one. -/
theorem EvaluationRequest.withNextAttempt_last {request : EvaluationRequest}
    (h : request.attemptNumber = u32Max) (nextAttemptId : AttemptId)
    (nextIdempotencyKey : IdempotencyKey) :
    request.withNextAttempt nextAttemptId nextIdempotencyKey =
      .error (.outOfRange "attempt_number" 1 u32Max request.attemptNumber) := by
  rw [EvaluationRequest.withNextAttempt, if_neg (by omega)]

end OpenOJ
