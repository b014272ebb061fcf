import Mathlib.Algebra.GroupWithZero.Nat
import OpenOJ.Domain.Evaluation

/-!
# Evaluation results

A result carries the identity it answers, its status, verdict and score, one report per stage,
diagnostics and evidence, and where it was produced (`EvaluationResultParts`). Every part has bounds
of its own, and a constructor that checks them: `ResourceUsage.new`, `Diagnostic.new`,
`StageReport.new`, `Score.new`, `ExecutionProvenance.new`.

`EvaluationResult.new` checks what the parts have to do with each other; a result that fails one of
these cannot be built:

* its stages are those of the plan, in order, and its collections are within their limits;
* the pattern of their statuses is that of the result's status (`validateTerminalStagePattern`), a
  rejection comes from a stage that may reject (`validateRejectedStage`), and verdict and score go
  with them (`validateTerminalSemantics`);
* the provenance names the runtime the result was asked for.

That a result eligible for production names its node, and is not one of the development mock, is
part of `ExecutionProvenance`.

`EvaluationResultParts.validate_eq_ok` spells the conjunction out, and the proofs about results read
it there.

Usage is added up with checks on the way (`ResourceUsage.checkedAdd`); `ResourceUsageParts.plus` is
the sum without them, which is associative and has a zero, and `aggregateUsage` the sum over the
reports of a result.
-/

namespace OpenOJ

open Outcome

def maxStageDiagnostics : Nat := 64

def maxStageEvidence : Nat := 256

def maxResultDiagnostics : Nat := 64

def maxResultEvidence : Nat := 256

def maxDiagnosticMessageLength : Nat := 2048

/-! ### Reports -/

structure ResourceUsageParts where
  cpuTimeMs : Nat
  wallTimeMs : Nat
  memoryPeakBytes : Nat
  outputBytes : Nat
  deriving DecidableEq

/-- The range checks of `ResourceUsage::new`. -/
def ResourceUsageParts.validate (parts : ResourceUsageParts) : Except DomainError Unit := do
  requireRange "usage.cpu_time_ms" parts.cpuTimeMs 0 maxCpuTimeMs
  requireRange "usage.wall_time_ms" parts.wallTimeMs 0 maxWallTimeMs
  requireRange "usage.memory_peak_bytes" parts.memoryPeakBytes 0 maxMemoryBytes
  requireRange "usage.output_bytes" parts.outputBytes 0 maxOutputBytes

/-- A bounded resource-usage summary. -/
structure ResourceUsage extends ResourceUsageParts where
  valid : toResourceUsageParts.validate = .ok ()
  deriving DecidableEq

/-- `ResourceUsage::new`. -/
def ResourceUsage.new (parts : ResourceUsageParts) : Except DomainError ResourceUsage :=
  match h : parts.validate with
  | .ok () => .ok ⟨parts, h⟩
  | .error e => .error e

theorem ResourceUsage.new_eq_ok {parts : ResourceUsageParts} {usage : ResourceUsage} :
    ResourceUsage.new parts = .ok usage ↔ usage.toResourceUsageParts = parts := by
  unfold ResourceUsage.new
  obtain ⟨given, hvalid⟩ := usage
  split
  · simp [eq_comm]
  · rename_i h
    refine iff_of_false (by simp) ?_
    rintro rfl
    rw [hvalid] at h
    cases h

/-- Usage within every hard limit. -/
structure ResourceUsageParts.Bounded (parts : ResourceUsageParts) : Prop where
  cpuTimeMs : parts.cpuTimeMs ≤ maxCpuTimeMs
  wallTimeMs : parts.wallTimeMs ≤ maxWallTimeMs
  memoryPeakBytes : parts.memoryPeakBytes ≤ maxMemoryBytes
  outputBytes : parts.outputBytes ≤ maxOutputBytes

theorem ResourceUsageParts.validate_eq_ok {parts : ResourceUsageParts} :
    parts.validate = .ok () ↔ parts.Bounded := by
  simp only [ResourceUsageParts.validate, bind_eq_ok, requireRange_eq_ok, Nat.zero_le, true_and,
    exists_const]
  constructor
  · rintro ⟨hcpu, hwall, hmemory, houtput⟩
    exact ⟨hcpu, hwall, hmemory, houtput⟩
  · rintro ⟨hcpu, hwall, hmemory, houtput⟩
    exact ⟨hcpu, hwall, hmemory, houtput⟩

theorem ResourceUsage.exists_new {parts : ResourceUsageParts} :
    (∃ usage, ResourceUsage.new parts = .ok usage) ↔ parts.Bounded := by
  simp only [ResourceUsage.new_eq_ok, ← ResourceUsageParts.validate_eq_ok]
  constructor
  · rintro ⟨usage, rfl⟩
    exact usage.valid
  · intro h
    exact ⟨⟨parts, h⟩, rfl⟩

theorem ResourceUsage.bounds (usage : ResourceUsage) :
    usage.cpuTimeMs ≤ maxCpuTimeMs ∧ usage.wallTimeMs ≤ maxWallTimeMs ∧
      usage.memoryPeakBytes ≤ maxMemoryBytes ∧ usage.outputBytes ≤ maxOutputBytes := by
  have h := usage.valid
  simpa [ResourceUsageParts.validate, bind_eq_ok] using h

/-- `ResourceUsage::default`. -/
def ResourceUsage.default : ResourceUsage := ⟨⟨0, 0, 0, 0⟩, by decide⟩

def u64Max : Nat := 18446744073709551615

/-- One counter of `checked_add`: its sum as a 64-bit value. -/
def checkedCounter (field : String) (maximum a b : Nat) : Except DomainError Nat :=
  if a + b ≤ u64Max then .ok (a + b) else .error (.outOfRange field 0 maximum u64Max)

/-- `ResourceUsage::checked_add`: times and output add up, memory peaks. -/
def ResourceUsage.checkedAdd (usage other : ResourceUsage) : Except DomainError ResourceUsage := do
  let cpuTimeMs ← checkedCounter "usage.cpu_time_ms" maxCpuTimeMs usage.cpuTimeMs other.cpuTimeMs
  let wallTimeMs ←
    checkedCounter "usage.wall_time_ms" maxWallTimeMs usage.wallTimeMs other.wallTimeMs
  let memoryPeakBytes := max usage.memoryPeakBytes other.memoryPeakBytes
  let outputBytes ←
    checkedCounter "usage.output_bytes" maxOutputBytes usage.outputBytes other.outputBytes
  ResourceUsage.new ⟨cpuTimeMs, wallTimeMs, memoryPeakBytes, outputBytes⟩

/-- Two usages taken together, without a bound. -/
def ResourceUsageParts.plus (usage other : ResourceUsageParts) : ResourceUsageParts where
  cpuTimeMs := usage.cpuTimeMs + other.cpuTimeMs
  wallTimeMs := usage.wallTimeMs + other.wallTimeMs
  memoryPeakBytes := max usage.memoryPeakBytes other.memoryPeakBytes
  outputBytes := usage.outputBytes + other.outputBytes

theorem ResourceUsageParts.plus_assoc (a b c : ResourceUsageParts) :
    (a.plus b).plus c = a.plus (b.plus c) := by
  simp only [ResourceUsageParts.plus, Nat.add_assoc, Nat.max_assoc]

theorem ResourceUsageParts.plus_zero (usage : ResourceUsageParts) :
    usage.plus ⟨0, 0, 0, 0⟩ = usage := by
  simp [ResourceUsageParts.plus]

theorem ResourceUsageParts.zero_plus (usage : ResourceUsageParts) :
    ResourceUsageParts.plus ⟨0, 0, 0, 0⟩ usage = usage := by
  simp [ResourceUsageParts.plus]

/-- No 64-bit sum of two usages wraps, so that adding them only checks the hard limits. -/
theorem ResourceUsage.checkedAdd_eq_ok {usage other total : ResourceUsage} :
    usage.checkedAdd other = .ok total ↔
      total.toResourceUsageParts = usage.toResourceUsageParts.plus other.toResourceUsageParts := by
  obtain ⟨hcpu, hwall, -, houtput⟩ := usage.bounds
  obtain ⟨hcpu', hwall', -, houtput'⟩ := other.bounds
  have hfits : ∀ {a b maximum : Nat} (field : String), a ≤ maximum → b ≤ maximum →
      maximum + maximum ≤ u64Max → checkedCounter field maximum a b = .ok (a + b) :=
    fun _ ha hb hmax => if_pos (Nat.le_trans (Nat.add_le_add ha hb) hmax)
  simp only [ResourceUsage.checkedAdd, hfits _ hcpu hcpu' (by decide),
    hfits _ hwall hwall' (by decide), hfits _ houtput houtput' (by decide), ok_bind,
    ResourceUsage.new_eq_ok]
  exact Iff.rfl

/-- A bounded diagnostic; its limit counts characters. -/
structure Diagnostic where
  code : DiagnosticCode
  message : String
  truncated : Bool
  bounded : message.length ≤ maxDiagnosticMessageLength
  deriving DecidableEq

/-- `Diagnostic::new`. -/
def Diagnostic.new (code : DiagnosticCode) (message : String) (truncated : Bool) :
    Except DomainError Diagnostic :=
  if h : message.length ≤ maxDiagnosticMessageLength then .ok ⟨code, message, truncated, h⟩
  else .error (.tooLong "diagnostic.message" maxDiagnosticMessageLength message.length)

structure EvidenceRef where
  evidenceId : EvidenceId
  kind : EvidenceKind
  artifact : Option ArtifactRef
  deriving DecidableEq

inductive StageStatus where
  | succeeded
  | failed
  | cancelled
  | skipped
  deriving DecidableEq, Repr

def StageStatus.asStr : StageStatus → String
  | .succeeded => "succeeded"
  | .failed => "failed"
  | .cancelled => "cancelled"
  | .skipped => "skipped"

/-- A bounded report for one stage. -/
structure StageReport where
  stage : StageKind
  status : StageStatus
  usage : ResourceUsage
  diagnostics : List Diagnostic
  evidence : List EvidenceRef
  diagnosticsBounded : diagnostics.length ≤ maxStageDiagnostics
  evidenceBounded : evidence.length ≤ maxStageEvidence
  deriving DecidableEq

/-- `StageReport::new`. -/
def StageReport.new (stage : StageKind) (status : StageStatus) (usage : ResourceUsage)
    (diagnostics : List Diagnostic) (evidence : List EvidenceRef) :
    Except DomainError StageReport :=
  if hdiagnostics : diagnostics.length ≤ maxStageDiagnostics then
    if hevidence : evidence.length ≤ maxStageEvidence then
      .ok ⟨stage, status, usage, diagnostics, evidence, hdiagnostics, hevidence⟩
    else .error (.tooManyItems "stage.evidence" maxStageEvidence evidence.length)
  else .error (.tooManyItems "stage.diagnostics" maxStageDiagnostics diagnostics.length)

/-- What the stages used together: times and output add up, memory peaks. -/
def aggregateUsage (stages : List StageReport) : ResourceUsageParts where
  cpuTimeMs := (stages.map (·.usage.cpuTimeMs)).sum
  wallTimeMs := (stages.map (·.usage.wallTimeMs)).sum
  memoryPeakBytes := (stages.map (·.usage.memoryPeakBytes)).foldr max 0
  outputBytes := (stages.map (·.usage.outputBytes)).sum

theorem aggregateUsage_cons (report : StageReport) (stages : List StageReport) :
    aggregateUsage (report :: stages) =
      report.usage.toResourceUsageParts.plus (aggregateUsage stages) := by
  simp only [aggregateUsage, ResourceUsageParts.plus, List.map_cons, List.sum_cons,
    List.foldr_cons]

inductive EvaluationStatus where
  | completed
  | failed
  | cancelled
  deriving DecidableEq, Repr

def EvaluationStatus.asStr : EvaluationStatus → String
  | .completed => "completed"
  | .failed => "failed"
  | .cancelled => "cancelled"

inductive Verdict where
  | accepted
  | wrongAnswer
  | compileError
  | runtimeError
  | timeLimitExceeded
  | memoryLimitExceeded
  | outputLimitExceeded
  | systemError
  | cancelled
  deriving DecidableEq, Repr

def Verdict.asStr : Verdict → String
  | .accepted => "accepted"
  | .wrongAnswer => "wrong_answer"
  | .compileError => "compile_error"
  | .runtimeError => "runtime_error"
  | .timeLimitExceeded => "time_limit_exceeded"
  | .memoryLimitExceeded => "memory_limit_exceeded"
  | .outputLimitExceeded => "output_limit_exceeded"
  | .systemError => "system_error"
  | .cancelled => "cancelled"

/-- A score out of a positive number of points. -/
structure Score where
  earned : Nat
  possible : Nat
  bounded : possible ≤ u32Max
  valid : possible ≠ 0 ∧ earned ≤ possible
  deriving DecidableEq

/-- `Score::new`. Its arguments are 32-bit values, so the bound is always met. -/
def Score.new (earned possible : Nat) : Except DomainError Score :=
  if h : possible ≤ u32Max ∧ possible ≠ 0 ∧ earned ≤ possible then
    .ok ⟨earned, possible, h.1, h.2⟩
  else .error .invalidScore

/-- No points of one. -/
def noPoints : Score := ⟨0, 1, by decide, by decide⟩

/-- The one point. -/
def onePoint : Score := ⟨1, 1, by decide, by decide⟩

theorem Score.new_eq_ok {earned possible : Nat} {score : Score} :
    Score.new earned possible = .ok score ↔ score.earned = earned ∧ score.possible = possible := by
  unfold Score.new
  split
  · rw [Except.ok.injEq, Score.mk.injEq, eq_comm, @eq_comm _ score.possible]
  · rename_i hinvalid
    refine iff_of_false (by simp) ?_
    rintro ⟨rfl, rfl⟩
    exact hinvalid ⟨score.bounded, score.valid⟩

inductive ExecutorKind where
  | developmentMock
  | firecracker
  deriving DecidableEq, Repr

def ExecutorKind.asStr : ExecutorKind → String
  | .developmentMock => "development_mock"
  | .firecracker => "firecracker"

/-- Where a result was produced. Mock executions are never production eligible, and a
production-eligible result names its node. -/
structure ExecutionProvenance where
  executorKind : ExecutorKind
  productionEligible : Bool
  runtimeDigest : ContentDigest
  nodeId : Option NodeId
  mock : ¬(executorKind = .developmentMock ∧ productionEligible = true)
  named : ¬(productionEligible = true ∧ nodeId = none)
  deriving DecidableEq

/-- `ExecutionProvenance::new`. -/
def ExecutionProvenance.new (executorKind : ExecutorKind) (productionEligible : Bool)
    (runtimeDigest : ContentDigest) (nodeId : Option NodeId) :
    Except DomainError ExecutionProvenance :=
  if hmock : ¬(executorKind = .developmentMock ∧ productionEligible = true) then
    if hnamed : ¬(productionEligible = true ∧ nodeId = none) then
      .ok ⟨executorKind, productionEligible, runtimeDigest, nodeId, hmock, hnamed⟩
    else .error (.invalidProvenance "production-eligible results require a node identity")
  else .error
    (.invalidProvenance "development mock results cannot be production eligible")

theorem ExecutionProvenance.new_eq_ok {executorKind : ExecutorKind} {productionEligible : Bool}
    {runtimeDigest : ContentDigest} {nodeId : Option NodeId} {provenance : ExecutionProvenance} :
    ExecutionProvenance.new executorKind productionEligible runtimeDigest nodeId =
        .ok provenance ↔
      provenance.executorKind = executorKind ∧ provenance.productionEligible = productionEligible ∧
        provenance.runtimeDigest = runtimeDigest ∧ provenance.nodeId = nodeId := by
  constructor
  · unfold ExecutionProvenance.new
    intro h
    split at h <;> [split at h; skip] <;> cases h
    exact ⟨rfl, rfl, rfl, rfl⟩
  · rintro ⟨rfl, rfl, rfl, rfl⟩
    rw [ExecutionProvenance.new, dif_pos provenance.mock, dif_pos provenance.named]

/-! ### Identity -/

/-- The immutable identity a result answers. -/
structure EvaluationIdentity where
  requestId : RequestId
  evaluationId : EvaluationId
  attemptId : AttemptId
  problemVersionId : ProblemVersionId
  submissionId : SubmissionId
  runtimeId : RuntimeId
  runtimeDigest : ContentDigest
  deriving DecidableEq

/-- `EvaluationIdentity::from_request`. -/
def EvaluationIdentity.fromRequest (request : EvaluationRequest) : EvaluationIdentity where
  requestId := request.requestId
  evaluationId := request.evaluationId
  attemptId := request.attemptId
  problemVersionId := request.problemVersion.problemVersionId
  submissionId := request.submission.submissionId
  runtimeId := request.runtime.runtimeId
  runtimeDigest := request.runtime.digest

/-! ### Terminal semantics -/

/-- `validate_terminal_stage_pattern`: the first stage with the terminal status has only
succeeded stages before it and only skipped ones after it. -/
def validateTerminalStagePattern (stages : List StageReport) (terminal : StageStatus) :
    Except DomainError Unit := do
  let index ← orRefuse
    (.invalidResult "terminal result does not contain its terminal stage status")
    (stages.findIdx? fun stage => stage.status = terminal)
  refuseIf ((stages.take index).any (fun stage => stage.status != .succeeded) ∨
      (stages.drop (index + 1)).any (fun stage => stage.status != .skipped))
    (.invalidResult "terminal stage requires succeeded predecessors and skipped successors")

/-- `validate_rejected_stage`. -/
def validateRejectedStage (stages : List StageReport) (rejected : StageKind) :
    Except DomainError Unit := do
  let index ← orRefuse (.invalidResult "the verdict does not map to a canonical stage")
    (stages.findIdx? fun stage => stage.stage = rejected)
  refuseIf (stages[index]?.any (fun stage => stage.status != .failed) ∨
      (stages.take index).any (fun stage => stage.status != .succeeded) ∨
      (stages.drop (index + 1)).any (fun stage => stage.status != .skipped))
    (.invalidResult "rejected results require succeeded predecessors and skipped successors")

/-- `validate_terminal_semantics`. -/
def validateTerminalSemantics (status : EvaluationStatus) (verdict : Verdict) (score : Score)
    (stages : List StageReport) : Except DomainError Unit :=
  match status with
  | .completed => do
    refuseIf (verdict = .cancelled ∨ verdict = .systemError)
      (.invalidResult "completed results cannot use cancelled or system-error verdicts")
    match verdict with
    | .accepted | .wrongAnswer =>
      refuseIf (stages.any fun stage => stage.status != .succeeded)
        (.invalidResult "accepted and wrong-answer results require all stages to succeed")
    | .compileError => do
      validateRejectedStage stages .build
      refuseIf (score.earned ≠ 0) (.invalidResult "compile-error results require a zero score")
    | .runtimeError | .timeLimitExceeded | .memoryLimitExceeded | .outputLimitExceeded => do
      validateRejectedStage stages .run
      refuseIf (score.earned ≠ 0) (.invalidResult "run-rejected results require a zero score")
    | .systemError | .cancelled =>
      .error (.invalidResult "completed results use an invalid terminal verdict")
  | .failed => do
    refuseIf (verdict ≠ .systemError ∨ score.earned ≠ 0)
      (.invalidResult "failed results require system_error and a zero score")
    validateTerminalStagePattern stages .failed
  | .cancelled => do
    refuseIf (verdict ≠ .cancelled ∨ score.earned ≠ 0)
      (.invalidResult "cancelled results require cancelled verdict and a zero score")
    validateTerminalStagePattern stages .cancelled

/-! ### Results -/

structure EvaluationResultParts where
  identity : EvaluationIdentity
  status : EvaluationStatus
  verdict : Verdict
  score : Score
  stages : List StageReport
  usage : ResourceUsage
  diagnostics : List Diagnostic
  evidence : List EvidenceRef
  provenance : ExecutionProvenance
  deriving DecidableEq

/-- `enforce_collection_limit`. -/
def enforceCollectionLimit (field : String) (actual maximum : Nat) : Except DomainError Unit :=
  refuseIf (maximum < actual) (.tooManyItems field maximum actual)

/-- The checks of `EvaluationResult::new`. -/
def EvaluationResultParts.validate (parts : EvaluationResultParts) : Except DomainError Unit := do
  refuseIf (maxStages < parts.stages.length ∨ parts.stages = [])
    (.invalidResult "stage reports must be non-empty and bounded")
  refuseIf (parts.stages.map (·.stage) ≠ algorithmBatchStages)
    (.invalidResult "algorithm batch results must preserve the canonical stage order")
  enforceCollectionLimit "result.diagnostics" parts.diagnostics.length maxResultDiagnostics
  enforceCollectionLimit "result.evidence" parts.evidence.length maxResultEvidence
  refuseIf (parts.provenance.runtimeDigest ≠ parts.identity.runtimeDigest)
    (.invalidProvenance "result provenance must match the requested runtime digest")
  validateTerminalSemantics parts.status parts.verdict parts.score parts.stages

/-- A validated evaluation result. -/
structure EvaluationResult extends EvaluationResultParts where
  valid : toEvaluationResultParts.validate = .ok ()
  deriving DecidableEq

/-- `EvaluationResult::new`. -/
def EvaluationResult.new (parts : EvaluationResultParts) : Except DomainError EvaluationResult :=
  match h : parts.validate with
  | .ok () => .ok ⟨parts, h⟩
  | .error e => .error e

theorem EvaluationResult.new_of_valid {parts : EvaluationResultParts}
    (h : parts.validate = .ok ()) : EvaluationResult.new parts = .ok ⟨parts, h⟩ := by
  unfold EvaluationResult.new
  split
  · rfl
  · rename_i herror
    rw [h] at herror
    cases herror

theorem EvaluationResult.new_eq_ok {parts : EvaluationResultParts} {result : EvaluationResult} :
    EvaluationResult.new parts = .ok result ↔ result.toEvaluationResultParts = parts := by
  constructor
  · unfold EvaluationResult.new
    intro h
    split at h <;> cases h
    rfl
  · rintro rfl
    exact EvaluationResult.new_of_valid result.valid

/-- What `EvaluationResult.new` checks, read as statements. -/
theorem EvaluationResultParts.validate_eq_ok {parts : EvaluationResultParts} :
    parts.validate = .ok () ↔
      parts.stages.map (·.stage) = algorithmBatchStages ∧
        parts.diagnostics.length ≤ maxResultDiagnostics ∧
          parts.evidence.length ≤ maxResultEvidence ∧
            parts.provenance.runtimeDigest = parts.identity.runtimeDigest ∧
              validateTerminalSemantics parts.status parts.verdict parts.score parts.stages =
                .ok () := by
  simp only [EvaluationResultParts.validate, enforceCollectionLimit, bind_eq_ok, refuseIf_eq_ok,
    exists_const, ne_eq, not_not, not_or, Nat.not_lt]
  constructor
  · rintro ⟨-, h⟩
    exact h
  · intro h
    refine ⟨⟨?_, ?_⟩, h⟩
    · have hlength := congrArg List.length h.1
      rw [List.length_map] at hlength
      rw [hlength]
      decide
    · rintro hnil
      rw [hnil] at h
      cases h.1

end OpenOJ
