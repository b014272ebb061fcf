import OpenOJ.Protocol.RoundTrip

/-!
# Which results are encoded

A domain result keeps every bound of the schema but one: the media types of its evidence
(`EvidenceRef.MediaTypeAccepted`). Part by part, what the constructors of the domain check is what
the schema asks of the corresponding object, with the same numbers and the same lengths.

* `evaluationResult_toValue`: of the document of a result, only the media types of its evidence are
  left to the schema;
* `encodeEvaluationResult_iff`: a result is encoded exactly when its usage is what its stages used
  together, the schema accepts the media types of its evidence, and its text is within the message
  limit.

The first of these three conditions is the one that the constructor of results does not check and
the cross-field rules of documents do. Unlike requests, results can be too long: what a stage
reports is bounded item by item, and the bounds together exceed the limit of a message.
-/

namespace OpenOJ

open Outcome

/-! ### The document against the schema -/

/-- The one thing the schema asks of evidence that the domain does not. -/
def EvidenceRef.MediaTypeAccepted (evidence : EvidenceRef) : Prop :=
  ∀ artifact ∈ evidence.artifact, Schema.mediaType (.string artifact.mediaType.value) = true

instance (evidence : EvidenceRef) : Decidable evidence.MediaTypeAccepted :=
  inferInstanceAs (Decidable (∀ artifact ∈ evidence.artifact, _ = true))

private theorem resourceUsage_toValue (usage : ResourceUsage) :
    Schema.resourceUsage (usageToValue usage) = true := by
  obtain ⟨hcpu, hwall, hmemory, houtput⟩ := usage.bounds
  simp only [maxCpuTimeMs, maxWallTimeMs, maxMemoryBytes, maxOutputBytes]
    at hcpu hwall hmemory houtput
  simp [Schema.resourceUsage, usageToValue, Schema.object, Schema.property, Schema.integer]
  omega

private theorem diagnostic_toValue (diagnostic : Diagnostic) :
    Schema.diagnostic (diagnosticToValue diagnostic) = true := by
  have hbounded : diagnostic.message.length ≤ 2048 := diagnostic.bounded
  simp [Schema.diagnostic, diagnosticToValue, Schema.object, Schema.property, Schema.text,
    Schema.boolean, hbounded]

private theorem evidenceRef_toValue (evidence : EvidenceRef) :
    Schema.evidenceRef (evidenceToValue evidence) = true ↔ evidence.MediaTypeAccepted := by
  obtain ⟨id, kind, _ | artifact⟩ := evidence <;>
    simp [Schema.evidenceRef, evidenceToValue, Schema.object, Schema.property, Schema.optional,
      EvidenceRef.MediaTypeAccepted, artifactRef_toValue]

/-- A bounded list of documents that satisfy a schema. -/
private theorem array_toValue {α : Type} {minItems maxItems : Nat} {schema : Schema}
    {f : α → Json.Value} {l : List α} (hmin : minItems ≤ l.length) (hmax : l.length ≤ maxItems) :
    Schema.array minItems maxItems schema (.array (l.map f)) = true ↔
      ∀ a ∈ l, schema (f a) = true := by
  simp [Schema.array, hmin, hmax]

private theorem stageReport_toValue (report : StageReport) :
    Schema.stageReport (stageReportToValue report) = true ↔
      ∀ evidence ∈ report.evidence, evidence.MediaTypeAccepted := by
  have hstage : Schema.stageKind (.string report.stage.asStr) = true := by
    cases report.stage <;> decide
  have hstatus : Schema.stageStatus (.string report.status.asStr) = true := by
    cases report.status <;> decide
  have hdiagnostics : Schema.array 0 64 Schema.diagnostic
      (.array (report.diagnostics.map diagnosticToValue)) = true :=
    (array_toValue (Nat.zero_le _) report.diagnosticsBounded).mpr
      fun diagnostic _ => diagnostic_toValue diagnostic
  have hevidence : Schema.array 0 256 Schema.evidenceRef
      (.array (report.evidence.map evidenceToValue)) = true ↔
        ∀ evidence ∈ report.evidence, evidence.MediaTypeAccepted :=
    (array_toValue (Nat.zero_le _) report.evidenceBounded).trans
      (forall₂_congr fun evidence _ => evidenceRef_toValue evidence)
  rw [← hevidence]
  simp [Schema.stageReport, stageReportToValue, Schema.object, Schema.property, hstage, hstatus,
    hdiagnostics, resourceUsage_toValue]

private theorem executionProvenance_toValue (provenance : ExecutionProvenance) :
    Schema.executionProvenance (provenanceToValue provenance) = true := by
  obtain ⟨kind, eligible, digest, _ | nodeId, -, -⟩ := provenance <;> cases kind <;>
    simp [Schema.executionProvenance, provenanceToValue, Schema.object, Schema.property,
      Schema.optional, Schema.enumeration, Schema.boolean, ExecutorKind.asStr]

private theorem score_toValue (score : Score) : Schema.score (scoreToValue score) = true := by
  obtain ⟨hpositive, hearned⟩ := score.valid
  have hbounded : score.possible ≤ 4294967295 := score.bounded
  simp [Schema.score, scoreToValue, Schema.object, Schema.property, Schema.integer]
  omega

/-- **The schema on results.** Of the document of a result, only the media types of its evidence
are left to the schema. -/
theorem evaluationResult_toValue (result : EvaluationResult) :
    Schema.evaluationResult (resultToValue result) = true ↔
      (∀ report ∈ result.stages, ∀ evidence ∈ report.evidence, evidence.MediaTypeAccepted) ∧
        ∀ evidence ∈ result.evidence, evidence.MediaTypeAccepted := by
  obtain ⟨horder, hfew, hfew', -, -⟩ := EvaluationResultParts.validate_eq_ok.mp result.valid
  have hlength : result.stages.length = 5 := by
    rw [← List.length_map (·.stage), horder]
    rfl
  have hstatus : Schema.evaluationStatus (.string result.status.asStr) = true := by
    cases result.status <;> decide
  have hverdict : Schema.verdict (.string result.verdict.asStr) = true := by
    cases result.verdict <;> decide
  have hdiagnostics : Schema.array 0 64 Schema.diagnostic
      (.array (result.diagnostics.map diagnosticToValue)) = true :=
    (array_toValue (Nat.zero_le _) hfew).mpr fun diagnostic _ => diagnostic_toValue diagnostic
  have hstages : Schema.array 1 32 Schema.stageReport
      (.array (result.stages.map stageReportToValue)) = true ↔
        ∀ report ∈ result.stages, ∀ evidence ∈ report.evidence, evidence.MediaTypeAccepted :=
    (array_toValue (by omega) (by omega)).trans
      (forall₂_congr fun report _ => stageReport_toValue report)
  have hevidence : Schema.array 0 256 Schema.evidenceRef
      (.array (result.evidence.map evidenceToValue)) = true ↔
        ∀ evidence ∈ result.evidence, evidence.MediaTypeAccepted :=
    (array_toValue (Nat.zero_le _) hfew').trans
      (forall₂_congr fun evidence _ => evidenceRef_toValue evidence)
  rw [← hstages, ← hevidence]
  simp [Schema.evaluationResult, Schema.resultProperties, resultToValue, Schema.object,
    Schema.property, Schema.enumeration, Schema.schemaVersion, schemaVersion, hstatus, hverdict,
    hdiagnostics, resourceUsage_toValue, executionProvenance_toValue, score_toValue, and_comm]

/-! ### Bytes -/

section Codec

variable [Wire]

/-- **Encodable results.** A result is encoded exactly when its usage is what its stages used
together, the schema accepts the media types of its evidence, and its text is within the
limit. -/
theorem encodeEvaluationResult_iff (hl : LosslessResults) {result : EvaluationResult} :
    (∃ payload, encodeEvaluationResult result = .ok payload) ↔
      result.usage.toResourceUsageParts = aggregateUsage result.stages ∧
        ((∀ report ∈ result.stages, ∀ evidence ∈ report.evidence, evidence.MediaTypeAccepted) ∧
          ∀ evidence ∈ result.evidence, evidence.MediaTypeAccepted) ∧
        (Json.toBytes (resultToValue result)).length ≤ maxEvaluationResultBytes := by
  rw [← evaluationResult_toValue, ← validateResultSemantics_toValue]
  constructor
  · rintro ⟨payload, h⟩
    obtain ⟨⟨⟩, hsemantics, h⟩ := bind_eq_ok.mp h
    have hvalid := (encodeWire_eq_ok.mp h).1
    rw [openEvaluationMessage_resultToValue] at hvalid
    refine ⟨hsemantics, hvalid, ?_⟩
    rw [← length_of_encodeWire hl hvalid (ordered_resultToValue result) h]
    exact (encodeWire_eq_ok.mp h).2.2
  · rintro ⟨hsemantics, hvalid, hsize⟩
    obtain ⟨payload, h⟩ := exists_encodeWire hl hvalid (ordered_resultToValue result)
      (openEvaluationMessage_resultToValue result ▸ hvalid) hsize
    exact ⟨payload, bind_eq_ok.mpr ⟨(), hsemantics, h⟩⟩

end Codec
end OpenOJ
