import OpenOJ.Protocol.Result

/-!
# Reading results

`resultFromValue` is the other half of the result codec: from a document, member by member, back to
a domain result. Names become values of enumerations (`stageStatusFromStr`,
`evaluationStatusFromStr`, `verdictFromStr`, `executorKindFromStr`), and the objects are read by
`usageFromValue`, `diagnosticFromValue`, `evidenceFromValue`, `stageReportFromValue` and
`identityFromMembers`, each of which ends in the constructor of the domain. A node that is absent is
read as none (`nodeIdFromValue`).

What the members of a document say is a relation (`ResultReads`, with `UsageReads` and `ReportReads`
for its parts), and what becomes of it is a function: `ResultFields` holds what was read, and
`ResultFields.build` checks it together. `ResultFields.Bounded` are the bounds of its parts.

* `resultFromValue_of_reads`: once the members say what they say, reading the document is building
  the result from them; so an error can come from the cross-field rules only.

`decodeEvaluationResult` starts from bytes and ends with a value of the generated type, on whose
document it has checked the schema and the cross-field rules; `decodeEvaluationResultDomain` goes on
to the domain result. `LosslessResults` is the assumption about the generated type under which the
codec is a round trip.
-/

namespace OpenOJ

open Outcome

/-! ### From a document to its result -/

/-- An optional member, read when it is there. -/
def optionalField {α : Type} (object : List (String × Json.Value)) (name : String)
    (read : Json.Value → Except ProtocolError α) : Except ProtocolError (Option α) :=
  match Json.get? object name with
  | none => .ok none
  | some value => do return some (← read value)

/-- `stage_status_from_value`. -/
def stageStatusFromStr : String → Except ProtocolError StageStatus
  | "succeeded" => .ok .succeeded
  | "failed" => .ok .failed
  | "cancelled" => .ok .cancelled
  | "skipped" => .ok .skipped
  | _ => .error .schemaViolation

/-- `evaluation_status_from_value`. -/
def evaluationStatusFromStr : String → Except ProtocolError EvaluationStatus
  | "completed" => .ok .completed
  | "failed" => .ok .failed
  | "cancelled" => .ok .cancelled
  | _ => .error .schemaViolation

/-- `verdict_from_value`. -/
def verdictFromStr : String → Except ProtocolError Verdict
  | "accepted" => .ok .accepted
  | "wrong_answer" => .ok .wrongAnswer
  | "compile_error" => .ok .compileError
  | "runtime_error" => .ok .runtimeError
  | "time_limit_exceeded" => .ok .timeLimitExceeded
  | "memory_limit_exceeded" => .ok .memoryLimitExceeded
  | "output_limit_exceeded" => .ok .outputLimitExceeded
  | "system_error" => .ok .systemError
  | "cancelled" => .ok .cancelled
  | _ => .error .schemaViolation

/-- `executor_kind_from_value`. -/
def executorKindFromStr : String → Except ProtocolError ExecutorKind
  | "development_mock" => .ok .developmentMock
  | "firecracker" => .ok .firecracker
  | _ => .error .schemaViolation

/-- `usage_from_value`. -/
def usageFromValue (value : Json.Value) : Except ProtocolError ResourceUsage := do
  let object ← asObject value
  fromDomain (ResourceUsage.new
    { cpuTimeMs := ← u64Field object "cpu_time_ms"
      wallTimeMs := ← u64Field object "wall_time_ms"
      memoryPeakBytes := ← u64Field object "memory_peak_bytes"
      outputBytes := ← u64Field object "output_bytes" })

/-- `diagnostic_from_value`. -/
def diagnosticFromValue (value : Json.Value) : Except ProtocolError Diagnostic := do
  let object ← asObject value
  let truncated ← orRefuse .schemaViolation (← field object "truncated").asBool?
  let code ← fromDomain (DiagnosticCode.parse (← stringField object "code"))
  fromDomain (Diagnostic.new code (← stringField object "message") truncated)

/-- `evidence_from_value`. -/
def evidenceFromValue (value : Json.Value) : Except ProtocolError EvidenceRef := do
  let object ← asObject value
  let artifact ← optionalField object "artifact" artifactFromValue
  let evidenceId ← fromDomain (OpaqueId.parse "evidence_id" (← stringField object "evidence_id"))
  let kind ← fromDomain (EvidenceKind.parse (← stringField object "kind"))
  return { evidenceId, kind, artifact }

/-- `stage_report_from_value`. -/
def stageReportFromValue (value : Json.Value) : Except ProtocolError StageReport := do
  let object ← asObject value
  let diagnostics ← (← asArray (← field object "diagnostics")).mapM diagnosticFromValue
  let evidence ← (← asArray (← field object "evidence")).mapM evidenceFromValue
  let stage ← stageKindFromValue (← field object "stage")
  let status ← stageStatusFromStr (← stringField object "status")
  let usage ← usageFromValue (← field object "usage")
  fromDomain (StageReport.new stage status usage diagnostics evidence)

/-- The reader of `node_id`. -/
def nodeIdFromValue (value : Json.Value) : Except ProtocolError NodeId := do
  fromDomain (OpaqueId.parse "node_id" (← asStr value))

/-- The identity `result_from_value` assembles: the runtime digest is the provenance's. -/
def identityFromMembers (object provenance : List (String × Json.Value)) :
    Except ProtocolError EvaluationIdentity := do
  let requestId ← fromDomain (OpaqueId.parse "request_id" (← stringField object "request_id"))
  let evaluationId ←
    fromDomain (OpaqueId.parse "evaluation_id" (← stringField object "evaluation_id"))
  let attemptId ← fromDomain (OpaqueId.parse "attempt_id" (← stringField object "attempt_id"))
  let problemVersionId ← fromDomain
    (OpaqueId.parse "problem_version_id" (← stringField object "problem_version_id"))
  let submissionId ←
    fromDomain (OpaqueId.parse "submission_id" (← stringField object "submission_id"))
  let runtimeId ← fromDomain (OpaqueId.parse "runtime_id" (← stringField object "runtime_id"))
  let runtimeDigest ← fromDomain (ContentDigest.parse (← stringField provenance "runtime_digest"))
  return ⟨requestId, evaluationId, attemptId, problemVersionId, submissionId, runtimeId,
    runtimeDigest⟩

/-- `result_from_value`. -/
def resultFromValue (value : Json.Value) : Except ProtocolError EvaluationResult := do
  let object ← asObject value
  let score ← asObject (← field object "score")
  let provenance ← asObject (← field object "provenance")
  let identity ← identityFromMembers object provenance
  let stages ← (← asArray (← field object "stages")).mapM stageReportFromValue
  let diagnostics ← (← asArray (← field object "diagnostics")).mapM diagnosticFromValue
  let evidence ← (← asArray (← field object "evidence")).mapM evidenceFromValue
  let productionEligible ← orRefuse .schemaViolation
    (← field provenance "production_eligible").asBool?
  let nodeId ← optionalField provenance "node_id" nodeIdFromValue
  let status ← evaluationStatusFromStr (← stringField object "status")
  let verdict ← verdictFromStr (← stringField object "verdict")
  let earned ← u32FromU64 (← u64Field score "earned")
  let possible ← u32FromU64 (← u64Field score "possible")
  let score ← fromDomain (Score.new earned possible)
  let usage ← usageFromValue (← field object "usage")
  let executorKind ← executorKindFromStr (← stringField provenance "executor_kind")
  let runtimeDigest ← fromDomain (ContentDigest.parse (← stringField provenance "runtime_digest"))
  let provenance ← fromDomain
    (ExecutionProvenance.new executorKind productionEligible runtimeDigest nodeId)
  fromDomain (EvaluationResult.new
    { identity, status, verdict, score, stages, usage, diagnostics, evidence, provenance })

/-! ### What the members say

The members of a document are read one by one and then checked together. What each of them
says is a relation between documents and values, so that both a document the schema accepts
and one that was written from a result can be shown to be in it. -/

/-- The members say what a stage used. -/
structure UsageMembers (object : List (String × Json.Value)) (usage : ResourceUsage) : Prop where
  cpuTimeMs : u64Field object "cpu_time_ms" = .ok usage.cpuTimeMs
  wallTimeMs : u64Field object "wall_time_ms" = .ok usage.wallTimeMs
  memoryPeakBytes : u64Field object "memory_peak_bytes" = .ok usage.memoryPeakBytes
  outputBytes : u64Field object "output_bytes" = .ok usage.outputBytes

/-- The document is an object with the members of a usage. -/
def UsageReads (value : Json.Value) (usage : ResourceUsage) : Prop :=
  ∃ object, value = .object object ∧ UsageMembers object usage

/-- A list of documents, read item by item, is this list. -/
def ItemsRead {α : Type} (read : Json.Value → Except ProtocolError α)
    (object : List (String × Json.Value)) (name : String) (items : List α) : Prop :=
  ∃ values, field object name = .ok (.array values) ∧ values.mapM read = .ok items

/-- The members say what a stage report says. -/
structure ReportMembers (object : List (String × Json.Value)) (report : StageReport) : Prop where
  diagnostics : ItemsRead diagnosticFromValue object "diagnostics" report.diagnostics
  evidence : ItemsRead evidenceFromValue object "evidence" report.evidence
  stage : stringField object "stage" = .ok report.stage.asStr
  status : stringField object "status" = .ok report.status.asStr
  usage : ∃ value, field object "usage" = .ok value ∧ UsageReads value report.usage

/-- The document is an object with the members of a stage report. -/
def ReportReads (value : Json.Value) (report : StageReport) : Prop :=
  ∃ object, value = .object object ∧ ReportMembers object report

/-- What the members of a result document say one by one. -/
structure ResultFields where
  identity : EvaluationIdentity
  status : EvaluationStatus
  verdict : Verdict
  earned : Nat
  possible : Nat
  stages : List StageReport
  usage : ResourceUsage
  diagnostics : List Diagnostic
  evidence : List EvidenceRef
  executorKind : ExecutorKind
  productionEligible : Bool
  nodeId : Option NodeId

/-- The members of a result document, of its score and of its provenance say this. -/
structure ResultMembers (object score provenance : List (String × Json.Value))
    (fields : ResultFields) : Prop where
  scoreObject : field object "score" = .ok (.object score)
  provenanceObject : field object "provenance" = .ok (.object provenance)
  identity : identityFromMembers object provenance = .ok fields.identity
  status : stringField object "status" = .ok fields.status.asStr
  verdict : stringField object "verdict" = .ok fields.verdict.asStr
  earned : u64Field score "earned" = .ok fields.earned
  possible : u64Field score "possible" = .ok fields.possible
  stages : ∃ values, field object "stages" = .ok (.array values) ∧
    List.Forall₂ ReportReads values fields.stages
  usage : ∃ value, field object "usage" = .ok value ∧ UsageReads value fields.usage
  diagnostics : ItemsRead diagnosticFromValue object "diagnostics" fields.diagnostics
  evidence : ItemsRead evidenceFromValue object "evidence" fields.evidence
  executorKind : stringField provenance "executor_kind" = .ok fields.executorKind.asStr
  productionEligible :
    field provenance "production_eligible" = .ok (.bool fields.productionEligible)
  runtimeDigest :
    stringField provenance "runtime_digest" = .ok fields.identity.runtimeDigest.value
  nodeId : optionalField provenance "node_id" nodeIdFromValue = .ok fields.nodeId

/-- The document says this. -/
def ResultReads (value : Json.Value) (fields : ResultFields) : Prop :=
  ∃ object score provenance, value = .object object ∧ ResultMembers object score provenance fields

/-- What the schema bounds in the members. -/
structure ResultFields.Bounded (fields : ResultFields) : Prop where
  earned : fields.earned ≤ u32Max
  possible : fields.possible ≠ 0 ∧ fields.possible ≤ u32Max
  diagnostics : fields.diagnostics.length ≤ maxResultDiagnostics
  evidence : fields.evidence.length ≤ maxResultEvidence

/-- The checks that join several members. -/
def ResultFields.build (fields : ResultFields) : Except ProtocolError EvaluationResult := do
  let score ← fromDomain (Score.new fields.earned fields.possible)
  let provenance ← fromDomain (ExecutionProvenance.new fields.executorKind
    fields.productionEligible fields.identity.runtimeDigest fields.nodeId)
  fromDomain (EvaluationResult.new
    { identity := fields.identity
      status := fields.status
      verdict := fields.verdict
      score
      stages := fields.stages
      usage := fields.usage
      diagnostics := fields.diagnostics
      evidence := fields.evidence
      provenance })

/-! ### Reading what the members say -/

theorem stageStatusFromStr_asStr (status : StageStatus) :
    stageStatusFromStr status.asStr = .ok status := by
  cases status <;> rfl

theorem evaluationStatusFromStr_asStr (status : EvaluationStatus) :
    evaluationStatusFromStr status.asStr = .ok status := by
  cases status <;> rfl

theorem verdictFromStr_asStr (verdict : Verdict) : verdictFromStr verdict.asStr = .ok verdict := by
  cases verdict <;> rfl

theorem executorKindFromStr_asStr (kind : ExecutorKind) :
    executorKindFromStr kind.asStr = .ok kind := by
  cases kind <;> rfl

theorem usageFromValue_of_reads {value : Json.Value} {usage : ResourceUsage}
    (h : UsageReads value usage) : usageFromValue value = .ok usage := by
  obtain ⟨object, rfl, h⟩ := h
  simp only [usageFromValue, asObject, Json.Value.asObject?_object, orRefuse_some, ok_bind,
    h.cpuTimeMs, h.wallTimeMs, h.memoryPeakBytes, h.outputBytes, fromDomain_eq_ok]
  exact ResourceUsage.new_eq_ok.mpr rfl

theorem stageReportFromValue_of_reads {value : Json.Value} {report : StageReport}
    (h : ReportReads value report) : stageReportFromValue value = .ok report := by
  obtain ⟨object, rfl, h⟩ := h
  obtain ⟨diagnostics, hdiagnostics, hdiagnostics'⟩ := h.diagnostics
  obtain ⟨evidence, hevidence, hevidence'⟩ := h.evidence
  obtain ⟨usage, husage, hreads⟩ := h.usage
  obtain ⟨stage, hstage, htext⟩ := bind_eq_ok.mp h.stage
  obtain rfl : stage = .string report.stage.asStr :=
    Json.Value.asStr?_eq_some.mp (orRefuse_eq_ok.mp htext)
  have hkind := stageKindFromValue_asStr report.stage
  simp only [stageReportFromValue, asObject, asArray, Json.Value.asObject?_object,
    Json.Value.asArray?_array, orRefuse_some, ok_bind, hdiagnostics, hdiagnostics', hevidence,
    hevidence', hstage, hkind, h.status, stageStatusFromStr_asStr, husage,
    usageFromValue_of_reads hreads, StageReport.new, report.diagnosticsBounded,
    report.evidenceBounded, dite_true, fromDomain_ok]

/-- **Reading.** Once the members say what they say, reading the document is checking them
together. -/
theorem resultFromValue_of_reads {value : Json.Value} {fields : ResultFields}
    (h : ResultReads value fields) (hb : fields.Bounded) :
    resultFromValue value = fields.build := by
  obtain ⟨object, score, provenance, rfl, h⟩ := h
  obtain ⟨stages, hstages, hreports⟩ := h.stages
  obtain ⟨usage, husage, hreads⟩ := h.usage
  obtain ⟨diagnostics, hdiagnostics, hdiagnostics'⟩ := h.diagnostics
  obtain ⟨evidence, hevidence, hevidence'⟩ := h.evidence
  have hreports' := mapM_eq_ok.mpr
    (hreports.imp fun _ _ => stageReportFromValue_of_reads)
  simp only [resultFromValue, asObject, asArray, Json.Value.asObject?_object,
    Json.Value.asArray?_array, Json.Value.asBool?_bool, orRefuse_some, ok_bind, h.scoreObject,
    h.provenanceObject, h.identity, hstages, hreports', hdiagnostics, hdiagnostics', hevidence,
    hevidence', h.productionEligible, h.nodeId, h.status, evaluationStatusFromStr_asStr, h.verdict,
    verdictFromStr_asStr, h.earned, h.possible, u32FromU64, hb.earned, hb.possible.2, if_true,
    husage, usageFromValue_of_reads hreads, h.executorKind, executorKindFromStr_asStr,
    h.runtimeDigest, ContentDigest.parse_value, fromDomain_ok]
  rfl

/-! ### Bytes -/

section Codec

variable [Wire]

/-- `decode_evaluation_result`. -/
def decodeEvaluationResult (input : List UInt8) : Except ProtocolError Wire.result.Doc := do
  ensureSize input.length maxEvaluationResultBytes
  let result ← orRefuse .malformedDocument (Wire.result.fromSlice input)
  let value ← orRefuse .encodingFailed (Wire.result.toValue result)
  validate value
  validateResultSemantics value
  return result

theorem decodeEvaluationResult_eq_ok {input : List UInt8} {result : Wire.result.Doc} :
    decodeEvaluationResult input = .ok result ↔
      input.length ≤ maxEvaluationResultBytes ∧ Wire.result.fromSlice input = some result ∧
        ∃ value, Wire.result.toValue result = some value ∧
          Schema.openEvaluationMessage value = true ∧ validateResultSemantics value = .ok () := by
  simp only [decodeEvaluationResult, ensureSize, validate, bind_eq_ok, refuseIf_eq_ok,
    orRefuse_eq_ok, exists_const, pure, Except.pure, Except.ok.injEq, Nat.not_lt, Bool.not_eq_false]
  constructor
  · rintro ⟨hsize, doc, hslice, value, hvalue, hvalid, ⟨⟩, hsemantics, rfl⟩
    exact ⟨hsize, hslice, value, hvalue, hvalid, hsemantics⟩
  · rintro ⟨hsize, hslice, value, hvalue, hvalid, hsemantics⟩
    exact ⟨hsize, result, hslice, value, hvalue, hvalid, (), hsemantics, rfl⟩

/-- `decode_evaluation_result_domain`. -/
def decodeEvaluationResultDomain (input : List UInt8) :
    Except ProtocolError EvaluationResult := do
  let result ← decodeEvaluationResult input
  let value ← orRefuse .encodingFailed (Wire.result.toValue result)
  resultFromValue value

/-- The wire type of results is lossless. -/
def LosslessResults : Prop := Wire.result.Lossless Schema.evaluationResult

end Codec
end OpenOJ
