import OpenOJ.Application.Evaluate
import OpenOJ.Protocol.Encodable

/-!
# Submitting what was evaluated

A worker encodes the result of an evaluation before it can submit it. Whether that succeeds is read
off the executor's outcomes: off the media types of their evidence, and off how much text their
diagnostics and evidence add to the document.

* `resultLength` is the length of the document, computed from the request, the provenance and the
  outcomes (`StageEntry.length`, `provenanceLength`, `usageLength`), and `length_resultToValue` says
  that it is;
* `Sendable` is the condition on the outcomes: the schema accepts the media types, and the document
  is no longer than a message may be;
* `encode_evaluate_iff`: the result of an evaluation is encoded exactly when the outcomes are
  sendable. Everything else that the encoder checks holds of every result that an evaluation
  answers.

Both parts of the condition can fail for an executor whose outcomes the domain accepts:
`evaluate_not_encodable` has an evaluation that ends well and cannot be submitted.
-/

namespace OpenOJ

open Outcome

/-! ### How long the document is -/

/-- The decimal digits of a number. -/
def digits (n : Nat) : Nat := (Json.printNumber n).length

/-- The bytes of a string literal, with its quotes and escapes. -/
def literalLength (s : String) : Nat := (Text.utf8 (Json.printString s)).length

/-- The bytes of a usage: its four counters and what is around them. -/
def usageLength (usage : ResourceUsageParts) : Nat :=
  69 + digits usage.cpuTimeMs + digits usage.memoryPeakBytes + digits usage.outputBytes +
    digits usage.wallTimeMs

/-- The bytes a stage adds to the document. -/
def StageEntry.length (entry : StageEntry) : Nat :=
  56 + (Json.toBytes (.array (entry.diagnostics.map diagnosticToValue))).length +
    (Json.toBytes (.array (entry.evidence.map evidenceToValue))).length +
    literalLength entry.stage.asStr + literalLength entry.status.asStr +
    usageLength entry.usage.toResourceUsageParts

/-- The bytes of the provenance. -/
def provenanceLength (kind : ExecutorKind) (productionEligible : Bool) (nodeId : Option NodeId)
    (runtimeDigest : ContentDigest) : Nat :=
  59 + literalLength kind.asStr + (if productionEligible then 4 else 5) +
    literalLength runtimeDigest.value +
    (nodeId.map fun nodeId => 11 + literalLength nodeId.value).getD 0

/-- What the stages used together. -/
def totalUsage : List StageEntry → ResourceUsageParts
  | [] => ⟨0, 0, 0, 0⟩
  | entry :: entries => entry.usage.toResourceUsageParts.plus (totalUsage entries)

/-- The bytes of the whole document. -/
def resultLength (request : EvaluationRequest) (provenance : Nat) (terminal : Terminal)
    (entries : List StageEntry) : Nat :=
  303 + literalLength request.attemptId.value + literalLength request.evaluationId.value +
    literalLength request.problemVersion.problemVersionId.value +
    literalLength request.requestId.value + literalLength request.runtime.runtimeId.value +
    literalLength request.submission.submissionId.value + provenance +
    literalLength terminal.status.asStr + literalLength terminal.verdict.asStr +
    digits terminal.score.earned + digits terminal.score.possible +
    usageLength (totalUsage entries) + (entries.map StageEntry.length).sum

theorem length_usageToValue (usage : ResourceUsage) :
    (Json.toBytes (usageToValue usage)).length = usageLength usage.toResourceUsageParts := by
  have hkeys : ["cpu_time_ms", "memory_peak_bytes", "output_bytes", "wall_time_ms"].map
      literalLength = [13, 19, 14, 14] := by decide
  simp only [List.map_cons, List.cons.injEq, literalLength] at hkeys
  simp only [usageToValue, Json.length_toBytes_object, Json.memberLength,
    Json.length_toBytes_number, List.map_cons, List.map_nil, List.sum_cons, List.sum_nil,
    List.length_cons, List.length_nil, usageLength, digits]
  omega

theorem length_stageReportToValue {entry : StageEntry} {report : StageReport}
    (h : entry.Reported report) :
    (Json.toBytes (stageReportToValue report)).length = entry.length := by
  have hkeys : ["diagnostics", "evidence", "stage", "status", "usage"].map literalLength =
      [13, 10, 7, 8, 7] := by decide
  simp only [List.map_cons, List.cons.injEq, literalLength] at hkeys
  have hstring : ∀ s, (Json.toBytes (.string s)).length = literalLength s := fun _ => rfl
  simp only [stageReportToValue, Json.length_toBytes_object, Json.memberLength, h.diagnostics,
    h.evidence, h.stage, h.status, h.usage, hstring, length_usageToValue, List.map_cons,
    List.map_nil, List.sum_cons, List.sum_nil, List.length_cons, List.length_nil,
    StageEntry.length]
  omega

theorem length_provenanceToValue (provenance : ExecutionProvenance) :
    (Json.toBytes (provenanceToValue provenance)).length = provenanceLength
      provenance.executorKind provenance.productionEligible provenance.nodeId
      provenance.runtimeDigest := by
  have hkeys : ["executor_kind", "node_id", "production_eligible", "runtime_digest"].map
      literalLength = [15, 9, 21, 16] := by decide
  simp only [List.map_cons, List.cons.injEq, literalLength] at hkeys
  have hstring : ∀ s, (Json.toBytes (.string s)).length = literalLength s := fun _ => rfl
  have hbool : ∀ b, (Json.toBytes (.bool b)).length = if b then 4 else 5 := by decide
  obtain ⟨kind, eligible, digest, _ | nodeId, -, -⟩ := provenance <;>
  · simp only [provenanceToValue, Json.length_toBytes_object, Json.memberLength, hstring, hbool,
      Option.map_none, Option.map_some, Option.toList_none, Option.toList_some, List.nil_append,
      List.cons_append, List.append_nil, List.map_cons, List.map_nil, List.sum_cons, List.sum_nil,
      List.length_cons, List.length_nil, provenanceLength, Option.getD_none, Option.getD_some]
    omega

private theorem length_scoreToValue (score : Score) :
    (Json.toBytes (scoreToValue score)).length =
      23 + digits score.earned + digits score.possible := by
  have hkeys : ["earned", "possible"].map literalLength = [8, 10] := by decide
  simp only [List.map_cons, List.cons.injEq, literalLength] at hkeys
  simp only [scoreToValue, Json.length_toBytes_object, Json.memberLength,
    Json.length_toBytes_number, List.map_cons, List.map_nil, List.sum_cons, List.sum_nil,
    List.length_cons, List.length_nil, digits]
  omega

private theorem sum_length_stages {entries : List StageEntry} {reports : List StageReport}
    (h : List.Forall₂ StageEntry.Reported entries reports) :
    ((reports.map stageReportToValue).map fun v => (Json.toBytes v).length).sum =
      (entries.map StageEntry.length).sum := by
  induction h with
  | nil => rfl
  | cons hreported _ ih =>
    simp only [List.map_cons, List.sum_cons, length_stageReportToValue hreported, ih]

private theorem aggregateUsage_eq_totalUsage {entries : List StageEntry}
    {reports : List StageReport} (h : List.Forall₂ StageEntry.Reported entries reports) :
    aggregateUsage reports = totalUsage entries := by
  induction h with
  | nil => rfl
  | cons hreported _ ih => rw [aggregateUsage_cons, totalUsage, hreported.usage, ih]

private theorem forall_evidence_iff {entries : List StageEntry} {reports : List StageReport}
    (h : List.Forall₂ StageEntry.Reported entries reports) {p : EvidenceRef → Prop} :
    (∀ report ∈ reports, ∀ evidence ∈ report.evidence, p evidence) ↔
      ∀ entry ∈ entries, ∀ evidence ∈ entry.evidence, p evidence := by
  induction h with
  | nil => simp
  | cons hreported _ ih => simp only [List.forall_mem_cons, ih, hreported.evidence]

/-- The document of a result is as long as what led to the result says. -/
theorem length_resultToValue {request : EvaluationRequest} {provenance : ExecutionProvenance}
    {entries : List StageEntry} {result : EvaluationResult}
    (h : (EvaluationRun.new request provenance).LeadsTo entries result) :
    (Json.toBytes (resultToValue result)).length = resultLength request
      (provenanceLength provenance.executorKind provenance.productionEligible provenance.nodeId
        provenance.runtimeDigest)
      ⟨result.status, result.verdict, result.score⟩ entries := by
  obtain ⟨reports, hreports, hstages, husage⟩ := h.reports
  have hstages : result.stages = reports := hstages
  have husage : result.usage.toResourceUsageParts = totalUsage entries := by
    rw [husage, ← aggregateUsage_eq_totalUsage hreports]
    exact ResourceUsageParts.zero_plus _
  have hlength : reports.length = 5 := by
    have horder := (EvaluationResultParts.validate_eq_ok.mp result.valid).1
    rw [← hstages, ← List.length_map (·.stage), horder]
    rfl
  have hkeys : ["attempt_id", "diagnostics", "evaluation_id", "evidence", "message_type",
      "problem_version_id", "provenance", "request_id", "runtime_id", "schema_version", "score",
      "stages", "status", "submission_id", "usage", "verdict", "evaluation_result",
      "openoj.evaluation/v0alpha1"].map literalLength =
        [12, 13, 15, 10, 14, 20, 12, 12, 12, 16, 7, 8, 8, 15, 7, 9, 19, 28] := by decide
  simp only [List.map_cons, List.cons.injEq, literalLength] at hkeys
  have hstring : ∀ s, (Json.toBytes (.string s)).length = literalLength s := fun _ => rfl
  have hempty : (Json.toBytes (.array [])).length = 2 := by decide
  simp only [resultToValue, Json.length_toBytes_object, Json.memberLength, h.identity, hstages,
    h.diagnostics, h.evidence, h.provenance, EvaluationRun.new, EvaluationIdentity.fromRequest,
    schemaVersion, hstring, hempty, length_usageToValue, husage, length_provenanceToValue,
    length_scoreToValue, Json.length_toBytes_array, sum_length_stages hreports, List.length_map,
    hlength, List.map_cons, List.map_nil, List.sum_cons, List.sum_nil, List.length_cons,
    List.length_nil, resultLength]
  simp only [literalLength]
  omega

/-! ### Which evaluations can be submitted -/

/-- The executor's outcomes make a message: the schema accepts the media types of their evidence,
and with the names, numbers and identifiers of the document they are within the message limit. -/
structure Sendable {σ : Type} (executor : StageExecutor σ) (request : EvaluationRequest)
    (state : σ) : Prop where
  mediaTypes : ∀ entry ∈ executor.outcomes request request.plan.stages state,
    ∀ evidence ∈ entry.evidence, evidence.MediaTypeAccepted
  length : ∀ terminal, ending none (executor.outcomes request request.plan.stages state) =
      some terminal →
    resultLength request (provenanceLength (executor.kind state)
      (executor.productionEligible state) (executor.nodeId state) request.runtime.digest) terminal
      (executor.outcomes request request.plan.stages state) ≤ maxEvaluationResultBytes

section Codec

variable [Wire]

/-- The result of an evaluation whose outcomes make a message is encoded. -/
theorem Sendable.exists_encode (hl : LosslessResults) {σ : Type} {executor : StageExecutor σ}
    {request : EvaluationRequest} {state : σ} {result : EvaluationResult}
    (hsendable : Sendable executor request state)
    (h : (evaluate executor request state).1 = .ok result) :
    ∃ payload, encodeEvaluationResult result = .ok payload := by
  obtain ⟨provenance, hprovenance, hleads⟩ := leadsTo_of_evaluate h
  obtain ⟨hkind, heligible, hdigest, hnode⟩ := ExecutionProvenance.new_eq_ok.mp hprovenance
  obtain ⟨reports, hreports, hstages, -⟩ := hleads.reports
  have hstages : result.stages = reports := hstages
  have hlength := length_resultToValue hleads
  rw [hkind, heligible, hdigest, hnode] at hlength
  refine (encodeEvaluationResult_iff hl).mpr ⟨usage_of_evaluate h, ⟨?_, ?_⟩, ?_⟩
  · rw [hstages]
    exact (forall_evidence_iff hreports).mpr hsendable.mediaTypes
  · rw [hleads.evidence]
    exact nofun
  · rw [hlength]
    exact hsendable.length _ hleads.ending

/-- **Which evaluations can be submitted.** The result of an evaluation is encoded exactly when
the outcomes of its executor make a message. Everything else the encoder checks holds of every
result. -/
theorem encode_evaluate_iff (hl : LosslessResults) {σ : Type} {executor : StageExecutor σ}
    {request : EvaluationRequest} {state : σ} {result : EvaluationResult}
    (h : (evaluate executor request state).1 = .ok result) :
    (∃ payload, encodeEvaluationResult result = .ok payload) ↔
      Sendable executor request state := by
  obtain ⟨provenance, hprovenance, hleads⟩ := leadsTo_of_evaluate h
  obtain ⟨hkind, heligible, hdigest, hnode⟩ := ExecutionProvenance.new_eq_ok.mp hprovenance
  obtain ⟨reports, hreports, hstages, -⟩ := hleads.reports
  have hstages : result.stages = reports := hstages
  have hlength := length_resultToValue hleads
  rw [hkind, heligible, hdigest, hnode] at hlength
  rw [encodeEvaluationResult_iff hl, hstages, forall_evidence_iff hreports, hleads.evidence,
    hlength, ← hstages]
  constructor
  · rintro ⟨-, ⟨hmediaTypes, -⟩, hsize⟩
    refine ⟨hmediaTypes, fun terminal hterminal => ?_⟩
    obtain rfl := Option.some.inj (hleads.ending.symm.trans hterminal)
    exact hsize
  · intro hsendable
    exact ⟨usage_of_evaluate h, ⟨hsendable.mediaTypes, by simp⟩,
      hsendable.length _ hleads.ending⟩

end Codec

/-! ### An executor whose evaluations cannot be submitted -/

/-- Evidence with an artifact of this media type. -/
def fixtureEvidence (mediaType : MediaType) : EvidenceRef where
  evidenceId := ⟨"evidence_01", by decide +kernel⟩
  kind := ⟨"log", by decide +kernel⟩
  artifact := some { fixtureRequest.submission.source with mediaType }

/-- A development executor that cancels the first stage and leaves this evidence. -/
def cancellingExecutor (evidence : List EvidenceRef) : StageExecutor Unit where
  kind _ := .developmentMock
  productionEligible _ := false
  nodeId _ := none
  supports _ _ := true
  execute _ state := (.cancelled .default [] evidence, state)

/-- An executor of a node that rejects the build. -/
def rejectingExecutor : StageExecutor Unit where
  kind _ := .firecracker
  productionEligible _ := true
  nodeId _ := some strangerId
  supports _ _ := true
  execute context state :=
    if context.stage = .build then
      (.rejected .compileError fixtureUsage [fixtureDiagnostic] [fixtureLog], state)
    else (.succeeded .default [] [] none, state)

section Json

attribute [local instance] jsonWire

/-- The evaluation on a node that rejects the build, with its diagnostic and its log, is encoded. -/
theorem encode_evaluate_iff_fixture :
    (evaluate rejectingExecutor fixtureRequest ()).1 = .ok fixtureRejection ∧
      ∃ payload, encodeEvaluationResult fixtureRejection = .ok payload := by
  have hevaluate : (evaluate rejectingExecutor fixtureRequest ()).1 = .ok fixtureRejection := by
    decide +kernel
  refine ⟨hevaluate, (encode_evaluate_iff (WireType.json_lossless _) hevaluate).mpr ⟨?_, ?_⟩⟩
  · decide +kernel
  · intro terminal hterminal
    have hending : ending none (rejectingExecutor.outcomes fixtureRequest
        fixtureRequest.plan.stages ()) = some ⟨.completed, .compileError, noPoints⟩ := by
      decide +kernel
    obtain rfl := Option.some.inj (hending.symm.trans hterminal)
    decide +kernel

/-- An artifact of a media type that only the domain accepts. -/
def unsendableEvidence : EvidenceRef := fixtureEvidence ⟨"!log/plain", by decide +kernel⟩

/-- The cancellation with that artifact in its first report. -/
def unsendableResult : EvaluationResult where
  toEvaluationResultParts := { fixtureCancellation with
    stages :=
      { idleReport .prepare .cancelled with
        evidence := [unsendableEvidence]
        evidenceBounded := by decide } :: fixtureCancellation.stages.tail }
  valid := by decide +kernel

/-- The evaluation answers a result that no worker can submit. -/
theorem evaluate_not_encodable :
    (evaluate (cancellingExecutor [unsendableEvidence]) fixtureRequest ()).1 =
        .ok unsendableResult ∧
      encodeEvaluationResult unsendableResult = .error .schemaViolation := by
  decide +kernel

end Json
end OpenOJ
