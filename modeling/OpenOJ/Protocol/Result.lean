import OpenOJ.Protocol.Request

/-!
# The result message

`resultToValue` writes a domain result as its document, with one function for each object of the
schema (`scoreToValue`, `usageToValue`, `diagnosticToValue`, `evidenceToValue`,
`stageReportToValue`, `provenanceToValue`). The document says nothing of a node when the result has
none.

`validateResultSemantics` checks the cross-field rules on a document, where every value is text or a
number:

* `validateTerminalPattern` and `validateAnyTerminalPattern`: one stage with the terminal status,
  the stages before it succeeded, and those after it were skipped;
* `validateResultStages`: the stages are those of the plan in canonical order, and their statuses go
  with the status, the verdict and the points of the result;
* `validateAggregateUsage`: the usage of the result is the sum over its stages, added up in 64-bit
  integers with a check at each addition (`addStageUsage`, `checkedAddU64`).

`encodeEvaluationResult` checks the rules and goes on to bytes. Two results are built for later use,
a cancellation (`fixtureCancellation`) and a rejection with a diagnostic, a log as evidence and a
node (`fixtureRejection`); both can be encoded (`exists_encode_cancellation`,
`exists_encode_rejection`).
-/

namespace OpenOJ

open Outcome

/-! ### From a result to its document -/

/-- `score_to_value`. -/
def scoreToValue (score : Score) : Json.Value :=
  .object [("earned", .number score.earned), ("possible", .number score.possible)]

/-- `usage_to_value`. -/
def usageToValue (usage : ResourceUsage) : Json.Value :=
  .object [("cpu_time_ms", .number usage.cpuTimeMs),
    ("memory_peak_bytes", .number usage.memoryPeakBytes),
    ("output_bytes", .number usage.outputBytes),
    ("wall_time_ms", .number usage.wallTimeMs)]

/-- `diagnostic_to_value`. -/
def diagnosticToValue (diagnostic : Diagnostic) : Json.Value :=
  .object [("code", .string diagnostic.code.value), ("message", .string diagnostic.message),
    ("truncated", .bool diagnostic.truncated)]

/-- `evidence_to_value`: the artifact is written only when there is one. -/
def evidenceToValue (evidence : EvidenceRef) : Json.Value :=
  .object (((evidence.artifact.map fun artifact => ("artifact", artifactToValue artifact)).toList)
    ++ [("evidence_id", .string evidence.evidenceId.value),
      ("kind", .string evidence.kind.value)])

/-- `stage_report_to_value`. -/
def stageReportToValue (report : StageReport) : Json.Value :=
  .object [("diagnostics", .array (report.diagnostics.map diagnosticToValue)),
    ("evidence", .array (report.evidence.map evidenceToValue)),
    ("stage", .string report.stage.asStr),
    ("status", .string report.status.asStr),
    ("usage", usageToValue report.usage)]

/-- `provenance_to_value`: the node is written only when there is one. -/
def provenanceToValue (provenance : ExecutionProvenance) : Json.Value :=
  .object ([("executor_kind", .string provenance.executorKind.asStr)] ++
    (provenance.nodeId.map fun nodeId => ("node_id", .string nodeId.value)).toList ++
    [("production_eligible", .bool provenance.productionEligible),
      ("runtime_digest", .string provenance.runtimeDigest.value)])

/-- `result_to_value`. -/
def resultToValue (result : EvaluationResult) : Json.Value :=
  .object [("attempt_id", .string result.identity.attemptId.value),
    ("diagnostics", .array (result.diagnostics.map diagnosticToValue)),
    ("evaluation_id", .string result.identity.evaluationId.value),
    ("evidence", .array (result.evidence.map evidenceToValue)),
    ("message_type", .string "evaluation_result"),
    ("problem_version_id", .string result.identity.problemVersionId.value),
    ("provenance", provenanceToValue result.provenance),
    ("request_id", .string result.identity.requestId.value),
    ("runtime_id", .string result.identity.runtimeId.value),
    ("schema_version", .string schemaVersion),
    ("score", scoreToValue result.score),
    ("stages", .array (result.stages.map stageReportToValue)),
    ("status", .string result.status.asStr),
    ("submission_id", .string result.identity.submissionId.value),
    ("usage", usageToValue result.usage),
    ("verdict", .string result.verdict.asStr)]

/-! ### Cross-field semantics -/

/-- A refusal for breaking the cross-field rules. -/
def violatesSemantics (c : Prop) [Decidable c] : Except ProtocolError Unit :=
  refuseIf c .semanticViolation

/-- `validate_terminal_pattern`. -/
def validateTerminalPattern (statuses : List String) (index : Nat) (terminal : String) :
    Except ProtocolError Unit :=
  violatesSemantics (statuses[index]? ≠ some terminal ∨
    (statuses.take index).any (· != "succeeded") ∨
    (statuses.drop (index + 1)).any (· != "skipped"))

/-- `validate_any_terminal_pattern`. -/
def validateAnyTerminalPattern (statuses : List String) (terminal : String) :
    Except ProtocolError Unit := do
  let index ← orRefuse .semanticViolation (statuses.findIdx? (· == terminal))
  validateTerminalPattern statuses index terminal

/-- One report of `validate_result_stages`, against the stage expected in its place. -/
def stageStatusOf (stage : Json.Value × String) : Except ProtocolError String := do
  let report ← asObject stage.1
  violatesSemantics ((← stringField report "stage") ≠ stage.2)
  stringField report "status"

/-- `validate_result_stages`. -/
def validateResultStages (stages : List Json.Value) (status verdict : String) :
    Except ProtocolError Unit := do
  let expected := ["prepare", "build", "run", "check", "aggregate"]
  violatesSemantics (stages.length ≠ expected.length)
  let statuses ← (stages.zip expected).mapM stageStatusOf
  if status = "completed" ∧ verdict ∈ ["accepted", "wrong_answer"] then
    violatesSemantics (statuses.any (· != "succeeded"))
  else if status = "completed" ∧ verdict = "compile_error" then
    validateTerminalPattern statuses 1 "failed"
  else if status = "completed" ∧ verdict ∈ ["runtime_error", "time_limit_exceeded",
      "memory_limit_exceeded", "output_limit_exceeded"] then
    validateTerminalPattern statuses 2 "failed"
  else if status = "failed" ∧ verdict = "system_error" then
    validateAnyTerminalPattern statuses "failed"
  else if status = "cancelled" ∧ verdict = "cancelled" then
    validateAnyTerminalPattern statuses "cancelled"
  else .error .semanticViolation

/-- The four counters of a usage document. -/
structure UsageTotals where
  cpuTimeMs : Nat
  wallTimeMs : Nat
  memoryPeakBytes : Nat
  outputBytes : Nat
  deriving DecidableEq

/-- `checked_add` on a `u64`. -/
def checkedAddU64 (a b : Nat) : Except ProtocolError Nat :=
  if a + b ≤ Json.Value.u64Max then .ok (a + b) else .error .semanticViolation

/-- One stage of the loop of `validate_aggregate_usage`. -/
def addStageUsage (totals : UsageTotals) (stage : Json.Value) :
    Except ProtocolError UsageTotals := do
  let report ← asObject stage
  let usage ← asObject (← field report "usage")
  let cpuTimeMs ← checkedAddU64 totals.cpuTimeMs (← u64Field usage "cpu_time_ms")
  let wallTimeMs ← checkedAddU64 totals.wallTimeMs (← u64Field usage "wall_time_ms")
  let memoryPeakBytes := max totals.memoryPeakBytes (← u64Field usage "memory_peak_bytes")
  let outputBytes ← checkedAddU64 totals.outputBytes (← u64Field usage "output_bytes")
  return { cpuTimeMs, wallTimeMs, memoryPeakBytes, outputBytes }

/-- `validate_aggregate_usage`. -/
def validateAggregateUsage (result : List (String × Json.Value)) (stages : List Json.Value) :
    Except ProtocolError Unit := do
  let totals ← stages.foldlM addStageUsage ⟨0, 0, 0, 0⟩
  let aggregate ← asObject (← field result "usage")
  violatesSemantics ((← u64Field aggregate "cpu_time_ms") ≠ totals.cpuTimeMs)
  violatesSemantics ((← u64Field aggregate "wall_time_ms") ≠ totals.wallTimeMs)
  violatesSemantics ((← u64Field aggregate "memory_peak_bytes") ≠ totals.memoryPeakBytes)
  violatesSemantics ((← u64Field aggregate "output_bytes") ≠ totals.outputBytes)

/-- The verdicts a completed result may carry only with no points earned. -/
def rejectedVerdicts : List String :=
  ["compile_error", "runtime_error", "time_limit_exceeded", "memory_limit_exceeded",
    "output_limit_exceeded"]

/-- `validate_result_semantics`. -/
def validateResultSemantics (value : Json.Value) : Except ProtocolError Unit := do
  let result ← asObject value
  let status ← stringField result "status"
  let verdict ← stringField result "verdict"
  let score ← asObject (← field result "score")
  let earned ← u64Field score "earned"
  let possible ← u64Field score "possible"
  let stages ← asArray (← field result "stages")
  let provenance ← asObject (← field result "provenance")
  violatesSemantics (possible < earned)
  violatesSemantics (status = "completed" ∧ verdict ∈ ["cancelled", "system_error"])
  violatesSemantics (status = "failed" ∧ (verdict ≠ "system_error" ∨ earned ≠ 0))
  violatesSemantics (status = "cancelled" ∧ (verdict ≠ "cancelled" ∨ earned ≠ 0))
  violatesSemantics (status ∉ ["completed", "failed", "cancelled"])
  violatesSemantics (status = "completed" ∧ verdict ∈ rejectedVerdicts ∧ earned ≠ 0)
  validateResultStages stages status verdict
  validateAggregateUsage result stages
  let executorKind ← stringField provenance "executor_kind"
  let productionEligible ← orRefuse .semanticViolation
    (← field provenance "production_eligible").asBool?
  violatesSemantics (productionEligible = true ∧
    (executorKind = "development_mock" ∨ (Json.get? provenance "node_id").isNone))

/-! ### Bytes -/

section Codec

variable [Wire]

/-- `encode_evaluation_result`. -/
def encodeEvaluationResult (result : EvaluationResult) : Except ProtocolError (List UInt8) := do
  let value := resultToValue result
  validateResultSemantics value
  encodeWire Wire.result value maxEvaluationResultBytes

/-- An encoded result is bounded. -/
theorem length_of_encodeResult {payload : List UInt8} {result : EvaluationResult}
    (h : encodeEvaluationResult result = .ok payload) :
    payload.length ≤ maxEvaluationResultBytes := by
  obtain ⟨-, -, h⟩ := bind_eq_ok.mp h
  exact (encodeWire_eq_ok.mp h).2.2

end Codec

/-! ### A cancellation of the fixture -/

/-- A report of a stage that used nothing. -/
def idleReport (stage : StageKind) (status : StageStatus) : StageReport where
  stage := stage
  status := status
  usage := .default
  diagnostics := []
  evidence := []
  diagnosticsBounded := Nat.zero_le _
  evidenceBounded := Nat.zero_le _

/-- The result of the fixture's evaluation when it is cancelled before its first stage. -/
def fixtureCancellation : EvaluationResult where
  identity := .fromRequest fixtureRequest
  status := .cancelled
  verdict := .cancelled
  score := noPoints
  stages := [idleReport .prepare .cancelled, idleReport .build .skipped, idleReport .run .skipped,
    idleReport .check .skipped, idleReport .aggregate .skipped]
  usage := .default
  diagnostics := []
  evidence := []
  provenance := ⟨.developmentMock, false, fixtureRequest.runtime.digest, none, by decide, by decide⟩
  valid := by decide +kernel

/-! ### A rejection of the fixture -/

/-- What a compiler says, with characters that a string literal escapes. -/
def fixtureDiagnostic : Diagnostic where
  code := ⟨"COMPILE_ERROR", by decide +kernel⟩
  message := "main.cpp:3: error: \"n\" was not declared\n"
  truncated := false
  bounded := by decide +kernel

/-- The log of a build, with the artifact it is kept in. -/
def fixtureLog : EvidenceRef where
  evidenceId := ⟨"evidence_build_01", by decide +kernel⟩
  kind := ⟨"build_log", by decide +kernel⟩
  artifact := some { fixtureRequest.submission.source with
    artifactId := ⟨"artifact_log_01", by decide +kernel⟩ }

def fixtureUsage : ResourceUsage := ⟨⟨40, 55, 1048576, 41⟩, by decide +kernel⟩

/-- The report of a build that fails. -/
def rejectedBuild : StageReport where
  stage := .build
  status := .failed
  usage := fixtureUsage
  diagnostics := [fixtureDiagnostic]
  evidence := [fixtureLog]
  diagnosticsBounded := by decide
  evidenceBounded := by decide

/-- A node other than the one of the fixture's claim. -/
def strangerId : NodeId := ⟨"node_02", by decide +kernel⟩

/-- The result of the fixture's evaluation on that node when its source does not compile. -/
def fixtureRejection : EvaluationResult where
  identity := .fromRequest fixtureRequest
  status := .completed
  verdict := .compileError
  score := noPoints
  stages := [idleReport .prepare .succeeded, rejectedBuild, idleReport .run .skipped,
    idleReport .check .skipped, idleReport .aggregate .skipped]
  usage := fixtureUsage
  diagnostics := []
  evidence := []
  provenance :=
    ⟨.firecracker, true, fixtureRequest.runtime.digest, some strangerId, by decide, by decide⟩
  valid := by decide +kernel

section Json

attribute [local instance] jsonWire

/-- Through plain JSON, the cancellation is encoded. -/
theorem exists_encode_cancellation :
    ∃ payload, encodeEvaluationResult fixtureCancellation = .ok payload ∧ 1 ≤ payload.length := by
  have hsemantics : validateResultSemantics (resultToValue fixtureCancellation) = .ok () := by
    decide +kernel
  have hschema : Schema.openEvaluationMessage (resultToValue fixtureCancellation) = true := by
    decide +kernel
  have hbound : Json.sizeBound (resultToValue fixtureCancellation) ≤ maxEvaluationResultBytes := by
    decide +kernel
  refine ⟨_, bind_eq_ok.mpr ⟨(), hsemantics, encodeWire_eq_ok.mpr
    ⟨hschema, ⟨_, rfl, rfl⟩, Nat.le_trans (Json.length_toBytes_le _) hbound⟩⟩,
    Json.length_toBytes_pos _⟩

/-- Through plain JSON, the rejection is encoded. -/
theorem exists_encode_rejection :
    ∃ payload, encodeEvaluationResult fixtureRejection = .ok payload := by
  have hsemantics : validateResultSemantics (resultToValue fixtureRejection) = .ok () := by
    decide +kernel
  have hschema : Schema.openEvaluationMessage (resultToValue fixtureRejection) = true := by
    decide +kernel
  have hbound : Json.sizeBound (resultToValue fixtureRejection) ≤ maxEvaluationResultBytes := by
    decide +kernel
  exact ⟨_, bind_eq_ok.mpr ⟨(), hsemantics, encodeWire_eq_ok.mpr
    ⟨hschema, ⟨_, rfl, rfl⟩, Nat.le_trans (Json.length_toBytes_le _) hbound⟩⟩⟩

end Json
end OpenOJ
