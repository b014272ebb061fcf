import OpenOJ.Protocol.ResultReading
import OpenOJ.Protocol.Tokens

/-!
# Documents that read as results

`ResultReads` relates a document to what its members say. Two kinds of documents are related to
something, and the two sections go through them object by object:

* `exists_resultReads`: every member of a document that the schema accepts as a result says
  something: enumerations name a value, counters fit their type, strings pass the domain's
  validators, and each list is one of things that are read;
* `resultReads_toValue`: the document of a domain result says what the result says
  (`EvaluationResult.fields`).

Only the first needs the schema. From the second, and because a result is rebuilt from its own
fields (`EvaluationResult.build_fields`, `EvaluationResult.fields_bounded`), it follows that the
document of a result reads back as the result (`resultFromValue_toValue`).

The relation is what keeps the two directions apart from the reader: neither section looks at
`resultFromValue`, whose one lemma about the relation is `resultFromValue_of_reads`.
-/

namespace OpenOJ

open Outcome

/-! ### Documents that the schema accepts -/

private theorem stringField_of {members : List (String × Json.Value)} {name s : String}
    (h : field members name = .ok (.string s)) : stringField members name = .ok s := by
  rw [stringField, h, ok_bind]
  rfl

private theorem u64Field_of {members : List (String × Json.Value)} {name : String} {n : Nat}
    (h : field members name = .ok (.number n)) (hn : n ≤ Json.Value.u64Max) :
    u64Field members name = .ok n := by
  rw [u64Field, h, ok_bind, Json.Value.asU64?_number hn]
  rfl

/-- A member that is an identifier. -/
private theorem exists_id {properties : List Schema.Property}
    {members : List (String × Json.Value)}
    (h : Schema.object properties (.object members) = true)
    (hnames : (properties.map (·.name)).Nodup) (name field : String)
    (hp : Schema.property name Schema.opaqueId ∈ properties) :
    ∃ id : OpaqueId field, stringField members name = .ok id.value := by
  obtain ⟨v, hv, hschema⟩ := Schema.exists_member h name _ hp hnames
  obtain ⟨id, rfl⟩ := exists_opaqueId field hschema
  exact ⟨id, stringField_of hv⟩

/-- A member that is a natural number. -/
private theorem exists_nat {properties : List Schema.Property}
    {members : List (String × Json.Value)}
    (h : Schema.object properties (.object members) = true)
    (hnames : (properties.map (·.name)).Nodup) (name : String) (minimum maximum : Nat)
    (hp : Schema.property name (Schema.integer minimum maximum) ∈ properties)
    (hmax : maximum ≤ Json.Value.u64Max) :
    ∃ n : Nat, u64Field members name = .ok n ∧ minimum ≤ n ∧ n ≤ maximum := by
  obtain ⟨v, hv, hschema⟩ := Schema.exists_member h name _ hp hnames
  obtain ⟨n, rfl, hge, hle⟩ := Schema.exists_integer hschema (Int.natCast_nonneg _)
  exact ⟨n, u64Field_of hv (by omega), by omega, by omega⟩

/-- A member that is a list of documents which can be read. -/
private theorem exists_items {α : Type} {read : Json.Value → Except ProtocolError α}
    {properties : List Schema.Property} {members : List (String × Json.Value)}
    (h : Schema.object properties (.object members) = true)
    (hnames : (properties.map (·.name)).Nodup) (name : String) (minimum maximum : Nat)
    (items : Schema)
    (hp : Schema.property name (Schema.array minimum maximum items) ∈ properties)
    (hread : ∀ v, items v = true → ∃ a, read v = .ok a) :
    ∃ as, ItemsRead read members name as ∧ as.length ≤ maximum := by
  obtain ⟨v, hv, hschema⟩ := Schema.exists_member h name _ hp hnames
  obtain ⟨vs, rfl, -, hlength, hitems⟩ := Schema.array_eq_true.mp hschema
  obtain ⟨as, has⟩ := exists_forall₂ fun v hmem => hread v (hitems v hmem)
  exact ⟨as, ⟨vs, hv, mapM_eq_ok.mpr has⟩, has.length_eq ▸ hlength⟩

/-! Names of an enumeration. -/

private theorem exists_sensitivity {v : Json.Value} (h : Schema.artifactSensitivity v = true) :
    ∃ sensitivity, v = .string (ArtifactSensitivity.asStr sensitivity) := by
  obtain ⟨s, hs, rfl⟩ := Schema.enumeration_eq_true.mp h
  simp only [List.mem_cons, List.not_mem_nil, or_false] at hs
  rcases hs with rfl | rfl | rfl
  exacts [⟨.publicArtifact, rfl⟩, ⟨.privateArtifact, rfl⟩, ⟨.hiddenArtifact, rfl⟩]

private theorem exists_stageKind {v : Json.Value} (h : Schema.stageKind v = true) :
    ∃ stage, v = .string (StageKind.asStr stage) := by
  obtain ⟨s, hs, rfl⟩ := Schema.enumeration_eq_true.mp h
  simp only [List.mem_cons, List.not_mem_nil, or_false] at hs
  rcases hs with rfl | rfl | rfl | rfl | rfl
  exacts [⟨.prepare, rfl⟩, ⟨.build, rfl⟩, ⟨.run, rfl⟩, ⟨.check, rfl⟩, ⟨.aggregate, rfl⟩]

private theorem exists_stageStatus {v : Json.Value} (h : Schema.stageStatus v = true) :
    ∃ status, v = .string (StageStatus.asStr status) := by
  obtain ⟨s, hs, rfl⟩ := Schema.enumeration_eq_true.mp h
  simp only [List.mem_cons, List.not_mem_nil, or_false] at hs
  rcases hs with rfl | rfl | rfl | rfl
  exacts [⟨.succeeded, rfl⟩, ⟨.failed, rfl⟩, ⟨.cancelled, rfl⟩, ⟨.skipped, rfl⟩]

private theorem exists_evaluationStatus {v : Json.Value}
    (h : Schema.evaluationStatus v = true) :
    ∃ status, v = .string (EvaluationStatus.asStr status) := by
  obtain ⟨s, hs, rfl⟩ := Schema.enumeration_eq_true.mp h
  simp only [List.mem_cons, List.not_mem_nil, or_false] at hs
  rcases hs with rfl | rfl | rfl
  exacts [⟨.completed, rfl⟩, ⟨.failed, rfl⟩, ⟨.cancelled, rfl⟩]

private theorem exists_verdict {v : Json.Value} (h : Schema.verdict v = true) :
    ∃ verdict, v = .string (Verdict.asStr verdict) := by
  obtain ⟨s, hs, rfl⟩ := Schema.enumeration_eq_true.mp h
  simp only [List.mem_cons, List.not_mem_nil, or_false] at hs
  rcases hs with rfl | rfl | rfl | rfl | rfl | rfl | rfl | rfl | rfl
  exacts [⟨.accepted, rfl⟩, ⟨.wrongAnswer, rfl⟩, ⟨.compileError, rfl⟩, ⟨.runtimeError, rfl⟩,
    ⟨.timeLimitExceeded, rfl⟩, ⟨.memoryLimitExceeded, rfl⟩, ⟨.outputLimitExceeded, rfl⟩,
    ⟨.systemError, rfl⟩, ⟨.cancelled, rfl⟩]

private theorem exists_executorKind {v : Json.Value}
    (h : Schema.enumeration ["development_mock", "firecracker"] v = true) :
    ∃ kind, v = .string (ExecutorKind.asStr kind) := by
  obtain ⟨s, hs, rfl⟩ := Schema.enumeration_eq_true.mp h
  simp only [List.mem_cons, List.not_mem_nil, or_false] at hs
  rcases hs with rfl | rfl
  exacts [⟨.developmentMock, rfl⟩, ⟨.firecracker, rfl⟩]

private theorem exists_bool {v : Json.Value} (h : Schema.boolean v = true) :
    ∃ b, v = .bool b := by
  cases v with
  | bool b => exact ⟨b, rfl⟩
  | _ => cases h

/-! Objects. -/

private theorem exists_usage {v : Json.Value} (h : Schema.resourceUsage v = true) :
    ∃ usage, UsageReads v usage := by
  obtain ⟨object, rfl⟩ := Schema.exists_object h
  obtain ⟨cpu, hcpu, -, hcpu'⟩ := exists_nat h (by decide) "cpu_time_ms" 0 86400000 (by simp)
    (by decide)
  obtain ⟨wall, hwall, -, hwall'⟩ := exists_nat h (by decide) "wall_time_ms" 0 86400000 (by simp)
    (by decide)
  obtain ⟨memory, hmemory, -, hmemory'⟩ := exists_nat h (by decide) "memory_peak_bytes" 0
    1099511627776 (by simp) (by decide)
  obtain ⟨output, houtput, -, houtput'⟩ := exists_nat h (by decide) "output_bytes" 0 1073741824
    (by simp) (by decide)
  have hvalid : (ResourceUsageParts.mk cpu wall memory output).validate = .ok () := by
    simp only [ResourceUsageParts.validate, bind_eq_ok, requireRange_eq_ok, maxCpuTimeMs,
      maxWallTimeMs, maxMemoryBytes, maxOutputBytes, exists_const]
    omega
  exact ⟨⟨_, hvalid⟩, object, rfl, hcpu, hwall, hmemory, houtput⟩

private theorem exists_artifact {v : Json.Value} (h : Schema.artifactRef v = true) :
    ∃ artifact, artifactFromValue v = .ok artifact := by
  obtain ⟨object, rfl⟩ := Schema.exists_object h
  obtain ⟨id, hid⟩ := exists_id h (by decide) "artifact_id" "artifact_id" (by simp)
  obtain ⟨_, hdigest, hschema⟩ :=
    Schema.exists_member h "digest" Schema.contentDigest (by simp) (by decide)
  obtain ⟨digest, rfl⟩ := exists_contentDigest hschema
  obtain ⟨_, hmedia, hschema⟩ :=
    Schema.exists_member h "media_type" Schema.mediaType (by simp) (by decide)
  obtain ⟨mediaType, rfl⟩ := exists_mediaType hschema
  obtain ⟨size, hsize, -, hbounded⟩ := exists_nat h (by decide) "size_bytes" 0 1099511627776
    (by simp) (by decide)
  obtain ⟨_, hsensitivity, hschema⟩ :=
    Schema.exists_member h "sensitivity" Schema.artifactSensitivity (by simp) (by decide)
  obtain ⟨sensitivity, rfl⟩ := exists_sensitivity hschema
  have hread : sensitivityFromStr sensitivity.asStr = .ok sensitivity := by
    cases sensitivity <;> rfl
  have hnew : ArtifactRef.new id digest mediaType size sensitivity =
      .ok ⟨id, digest, mediaType, size, sensitivity, hbounded⟩ := dif_pos hbounded
  refine ⟨⟨id, digest, mediaType, size, sensitivity, hbounded⟩, ?_⟩
  simp only [artifactFromValue, asObject, Json.Value.asObject?_object, orRefuse_some, ok_bind,
    stringField_of hsensitivity, hread, hid, OpaqueId.parse_value, fromDomain_ok,
    stringField_of hdigest, ContentDigest.parse_value, stringField_of hmedia,
    MediaType.parse_value, hsize, hnew]

private theorem exists_diagnostic {v : Json.Value} (h : Schema.diagnostic v = true) :
    ∃ diagnostic, diagnosticFromValue v = .ok diagnostic := by
  obtain ⟨object, rfl⟩ := Schema.exists_object h
  obtain ⟨_, hcode, hschema⟩ := Schema.exists_member h "code"
    (Schema.string 1 64 Schema.diagnosticCodePattern) (by simp) (by decide)
  obtain ⟨code, rfl⟩ := exists_diagnosticCode hschema
  obtain ⟨message, hmessage, hschema⟩ :=
    Schema.exists_member h "message" (Schema.text 2048) (by simp) (by decide)
  obtain ⟨text, rfl, hbounded⟩ : ∃ text, message = .string text ∧ text.length ≤ 2048 := by
    cases message with
    | string text => exact ⟨text, rfl, of_decide_eq_true hschema⟩
    | _ => cases hschema
  obtain ⟨_, htruncated, hschema⟩ :=
    Schema.exists_member h "truncated" Schema.boolean (by simp) (by decide)
  obtain ⟨truncated, rfl⟩ := exists_bool hschema
  have hnew : Diagnostic.new code text truncated = .ok ⟨code, text, truncated, hbounded⟩ :=
    dif_pos hbounded
  refine ⟨⟨code, text, truncated, hbounded⟩, ?_⟩
  simp only [diagnosticFromValue, asObject, Json.Value.asObject?_object, orRefuse_some, ok_bind,
    htruncated, Json.Value.asBool?_bool, stringField_of hcode, DiagnosticCode.parse_value,
    fromDomain_ok, stringField_of hmessage, hnew]

private theorem exists_evidence {v : Json.Value} (h : Schema.evidenceRef v = true) :
    ∃ evidence, evidenceFromValue v = .ok evidence := by
  obtain ⟨object, rfl⟩ := Schema.exists_object h
  obtain ⟨id, hid⟩ := exists_id h (by decide) "evidence_id" "evidence_id" (by simp)
  obtain ⟨_, hkind, hschema⟩ := Schema.exists_member h "kind"
    (Schema.string 1 64 Schema.tokenPattern) (by simp) (by decide)
  obtain ⟨kind, rfl⟩ := exists_evidenceKind hschema
  obtain ⟨artifact, hartifact⟩ :
      ∃ artifact, optionalField object "artifact" artifactFromValue = .ok artifact := by
    unfold optionalField
    cases hget : Json.get? object "artifact" with
    | none => exact ⟨none, rfl⟩
    | some w =>
      have hschema : Schema.artifactRef w = true := Schema.schema_of_get?
        (p := Schema.optional "artifact" Schema.artifactRef) h (by simp) (by decide) hget
      obtain ⟨artifact, hread⟩ := exists_artifact hschema
      refine ⟨some artifact, ?_⟩
      simp only [hread, ok_bind]
      rfl
  refine ⟨⟨id, kind, artifact⟩, ?_⟩
  simp only [evidenceFromValue, asObject, Json.Value.asObject?_object, orRefuse_some, ok_bind,
    hartifact, hid, OpaqueId.parse_value, fromDomain_ok, stringField_of hkind,
    EvidenceKind.parse_value]
  rfl

private theorem exists_stageReport {v : Json.Value} (h : Schema.stageReport v = true) :
    ∃ report, ReportReads v report := by
  obtain ⟨object, rfl⟩ := Schema.exists_object h
  obtain ⟨_, hstage, hschema⟩ :=
    Schema.exists_member h "stage" Schema.stageKind (by simp) (by decide)
  obtain ⟨stage, rfl⟩ := exists_stageKind hschema
  obtain ⟨_, hstatus, hschema⟩ :=
    Schema.exists_member h "status" Schema.stageStatus (by simp) (by decide)
  obtain ⟨status, rfl⟩ := exists_stageStatus hschema
  obtain ⟨_, husage, hschema⟩ :=
    Schema.exists_member h "usage" Schema.resourceUsage (by simp) (by decide)
  obtain ⟨usage, hreads⟩ := exists_usage hschema
  obtain ⟨diagnostics, hdiagnostics, hfew⟩ := exists_items h (by decide) "diagnostics" 0 64
    Schema.diagnostic (by simp) fun _ => exists_diagnostic
  obtain ⟨evidence, hevidence, hfew'⟩ := exists_items h (by decide) "evidence" 0 256
    Schema.evidenceRef (by simp) fun _ => exists_evidence
  exact ⟨⟨stage, status, usage, diagnostics, evidence, hfew, hfew'⟩, object, rfl, hdiagnostics,
    hevidence, stringField_of hstage, stringField_of hstatus, _, husage, hreads⟩

/-- The names of a result's properties are distinct. -/
private theorem resultProperties_names : (Schema.resultProperties.map (·.name)).Nodup := by decide

/-- **Schema-valid results read.** Every member of a document that the schema accepts as a
result says something. -/
theorem exists_resultReads {v : Json.Value} (h : Schema.evaluationResult v = true) :
    ∃ fields, ResultReads v fields ∧ fields.Bounded := by
  obtain ⟨object, rfl⟩ := Schema.exists_object h
  have hnames := resultProperties_names
  have hid : ∀ name field, Schema.property name Schema.opaqueId ∈ Schema.resultProperties →
      ∃ id : OpaqueId field, stringField object name = .ok id.value :=
    fun name field hp => exists_id h hnames name field hp
  unfold Schema.resultProperties at hid hnames
  unfold Schema.evaluationResult Schema.resultProperties at h
  obtain ⟨requestId, hrequest⟩ := hid "request_id" "request_id" (by simp)
  obtain ⟨evaluationId, hevaluation⟩ := hid "evaluation_id" "evaluation_id" (by simp)
  obtain ⟨attemptId, hattempt⟩ := hid "attempt_id" "attempt_id" (by simp)
  obtain ⟨problemVersionId, hproblem⟩ := hid "problem_version_id" "problem_version_id" (by simp)
  obtain ⟨submissionId, hsubmission⟩ := hid "submission_id" "submission_id" (by simp)
  obtain ⟨runtimeId, hruntime⟩ := hid "runtime_id" "runtime_id" (by simp)
  obtain ⟨_, hstatus, hschema⟩ :=
    Schema.exists_member h "status" Schema.evaluationStatus (by simp) hnames
  obtain ⟨status, rfl⟩ := exists_evaluationStatus hschema
  obtain ⟨_, hverdict, hschema⟩ :=
    Schema.exists_member h "verdict" Schema.verdict (by simp) hnames
  obtain ⟨verdict, rfl⟩ := exists_verdict hschema
  obtain ⟨_, husage, hschema⟩ :=
    Schema.exists_member h "usage" Schema.resourceUsage (by simp) hnames
  obtain ⟨usage, hreads⟩ := exists_usage hschema
  obtain ⟨diagnostics, hdiagnostics, hfew⟩ := exists_items h hnames "diagnostics" 0 64
    Schema.diagnostic (by simp) fun _ => exists_diagnostic
  obtain ⟨evidence, hevidence, hfew'⟩ := exists_items h hnames "evidence" 0 256
    Schema.evidenceRef (by simp) fun _ => exists_evidence
  obtain ⟨_, hstages, hschema⟩ := Schema.exists_member h "stages"
    (Schema.array 1 32 Schema.stageReport) (by simp) hnames
  obtain ⟨stageValues, rfl, -, -, hitems⟩ := Schema.array_eq_true.mp hschema
  obtain ⟨stages, hreports⟩ := exists_forall₂ fun v hmem => exists_stageReport (hitems v hmem)
  -- the score
  obtain ⟨_, hscore, hschema⟩ := Schema.exists_member h "score" Schema.score (by simp) hnames
  obtain ⟨score, rfl⟩ := Schema.exists_object hschema
  obtain ⟨earned, hearned, -, hearned'⟩ := exists_nat hschema (by decide) "earned" 0 4294967295
    (by simp) (by decide)
  obtain ⟨possible, hpossible, hpositive, hpossible'⟩ := exists_nat hschema (by decide) "possible"
    1 4294967295 (by simp) (by decide)
  -- the provenance
  obtain ⟨_, hprovenance, hschema⟩ :=
    Schema.exists_member h "provenance" Schema.executionProvenance (by simp) hnames
  obtain ⟨provenance, rfl⟩ := Schema.exists_object hschema
  obtain ⟨_, hkind, hkind'⟩ := Schema.exists_member hschema "executor_kind"
    (Schema.enumeration ["development_mock", "firecracker"]) (by simp) (by decide)
  obtain ⟨kind, rfl⟩ := exists_executorKind hkind'
  obtain ⟨_, heligible, heligible'⟩ :=
    Schema.exists_member hschema "production_eligible" Schema.boolean (by simp) (by decide)
  obtain ⟨eligible, rfl⟩ := exists_bool heligible'
  obtain ⟨_, hdigest, hdigest'⟩ :=
    Schema.exists_member hschema "runtime_digest" Schema.contentDigest (by simp) (by decide)
  obtain ⟨digest, rfl⟩ := exists_contentDigest hdigest'
  obtain ⟨nodeId, hnode⟩ :
      ∃ nodeId, optionalField provenance "node_id" nodeIdFromValue = .ok nodeId := by
    unfold optionalField
    cases hget : Json.get? provenance "node_id" with
    | none => exact ⟨none, rfl⟩
    | some w =>
      have hw : Schema.opaqueId w = true := Schema.schema_of_get?
        (p := Schema.optional "node_id" Schema.opaqueId) hschema (by simp) (by decide) hget
      obtain ⟨id, rfl⟩ := exists_opaqueId "node_id" hw
      exact ⟨some id, by simp [nodeIdFromValue, asStr]⟩
  have hidentity : identityFromMembers object provenance = .ok ⟨requestId, evaluationId, attemptId,
      problemVersionId, submissionId, runtimeId, digest⟩ := by
    simp only [identityFromMembers, hrequest, hevaluation, hattempt, hproblem, hsubmission,
      hruntime, stringField_of hdigest, OpaqueId.parse_value, ContentDigest.parse_value,
      fromDomain_ok, ok_bind]
    rfl
  refine ⟨⟨⟨requestId, evaluationId, attemptId, problemVersionId, submissionId, runtimeId, digest⟩,
    status, verdict, earned, possible, stages, usage, diagnostics, evidence, kind, eligible,
    nodeId⟩, ⟨object, score, provenance, rfl, ?_⟩, hearned',
    ⟨Nat.one_le_iff_ne_zero.mp hpositive, hpossible'⟩, hfew, hfew'⟩
  exact {
    scoreObject := hscore
    provenanceObject := hprovenance
    identity := hidentity
    status := stringField_of hstatus
    verdict := stringField_of hverdict
    earned := hearned
    possible := hpossible
    stages := ⟨stageValues, hstages, hreports⟩
    usage := ⟨_, husage, hreads⟩
    diagnostics := hdiagnostics
    evidence := hevidence
    executorKind := stringField_of hkind
    productionEligible := heligible
    runtimeDigest := stringField_of hdigest
    nodeId := hnode }

/-! ### Documents that were written -/

/-- What a result says member by member. -/
def EvaluationResult.fields (result : EvaluationResult) : ResultFields where
  identity := result.identity
  status := result.status
  verdict := result.verdict
  earned := result.score.earned
  possible := result.score.possible
  stages := result.stages
  usage := result.usage
  diagnostics := result.diagnostics
  evidence := result.evidence
  executorKind := result.provenance.executorKind
  productionEligible := result.provenance.productionEligible
  nodeId := result.provenance.nodeId

/-- A result keeps the bounds of its members. -/
theorem EvaluationResult.fields_bounded (result : EvaluationResult) : result.fields.Bounded := by
  obtain ⟨-, hdiagnostics, hevidence, -⟩ := EvaluationResultParts.validate_eq_ok.mp result.valid
  exact ⟨Nat.le_trans result.score.valid.2 result.score.bounded,
    ⟨result.score.valid.1, result.score.bounded⟩, hdiagnostics, hevidence⟩

/-- Checked together, the members of a result are the result. -/
theorem EvaluationResult.build_fields (result : EvaluationResult) :
    result.fields.build = .ok result := by
  obtain ⟨⟨identity, status, verdict, score, stages, usage, diagnostics, evidence, provenance⟩,
    hvalid⟩ := result
  obtain ⟨-, -, -, hmatch, -⟩ := EvaluationResultParts.validate_eq_ok.mp hvalid
  have hscore : Score.new score.earned score.possible = .ok score :=
    dif_pos ⟨score.bounded, score.valid⟩
  have hprovenance : ExecutionProvenance.new provenance.executorKind
      provenance.productionEligible identity.runtimeDigest provenance.nodeId = .ok provenance := by
    rw [← hmatch, ExecutionProvenance.new, dif_pos provenance.mock, dif_pos provenance.named]
  simp only [ResultFields.build, EvaluationResult.fields, hscore, hprovenance, fromDomain_ok,
    ok_bind, EvaluationResult.new_of_valid hvalid]

theorem usageReads_toValue (usage : ResourceUsage) : UsageReads (usageToValue usage) usage := by
  obtain ⟨hcpu, hwall, hmemory, houtput⟩ := usage.bounds
  have hle : ∀ {n maximum : Nat}, n ≤ maximum → maximum ≤ Json.Value.u64Max →
      (Json.Value.number n).asU64? = some n := fun h hmax =>
    Json.Value.asU64?_number (Nat.le_trans h hmax)
  refine ⟨_, rfl, ?_, ?_, ?_, ?_⟩
  · simp [u64Field, field, Json.get?_cons, hle hcpu (by decide)]
  · simp [u64Field, field, Json.get?_cons, hle hwall (by decide)]
  · simp [u64Field, field, Json.get?_cons, hle hmemory (by decide)]
  · simp [u64Field, field, Json.get?_cons, hle houtput (by decide)]

theorem diagnosticFromValue_toValue (diagnostic : Diagnostic) :
    diagnosticFromValue (diagnosticToValue diagnostic) = .ok diagnostic := by
  have hnew : Diagnostic.new diagnostic.code diagnostic.message diagnostic.truncated =
      .ok diagnostic := dif_pos diagnostic.bounded
  simp [diagnosticFromValue, diagnosticToValue, asObject, stringField, field, asStr,
    Json.get?_cons, hnew]

theorem evidenceFromValue_toValue (evidence : EvidenceRef) :
    evidenceFromValue (evidenceToValue evidence) = .ok evidence := by
  obtain ⟨id, kind, _ | artifact⟩ := evidence <;>
    simp [evidenceFromValue, evidenceToValue, asObject, stringField, field, asStr, optionalField,
      Json.get?_cons, Json.get?_nil, pure, Except.pure]

theorem reportReads_toValue (report : StageReport) :
    ReportReads (stageReportToValue report) report := by
  refine ⟨_, rfl, ⟨_, ?_, mapM_map_ok diagnosticFromValue_toValue _⟩,
    ⟨_, ?_, mapM_map_ok evidenceFromValue_toValue _⟩, ?_, ?_, _, ?_, usageReads_toValue _⟩
  · simp [field, Json.get?_cons]
  · simp [field, Json.get?_cons]
  · simp [stringField, field, asStr, Json.get?_cons]
  · simp [stringField, field, asStr, Json.get?_cons]
  · simp [field, Json.get?_cons]

/-- **Written results read.** The document of a result says what the result says. -/
theorem resultReads_toValue (result : EvaluationResult) :
    ResultReads (resultToValue result) result.fields := by
  obtain ⟨-, -, -, hmatch, -⟩ := EvaluationResultParts.validate_eq_ok.mp result.valid
  obtain ⟨hearned, ⟨-, hpossible⟩, -, -⟩ := result.fields_bounded
  have hearned' : (Json.Value.number result.score.earned).asU64? = some result.score.earned :=
    Json.Value.asU64?_number (Nat.le_trans hearned (by decide))
  have hpossible' : (Json.Value.number result.score.possible).asU64? =
      some result.score.possible := Json.Value.asU64?_number (Nat.le_trans hpossible (by decide))
  have hstages : List.Forall₂ ReportReads (result.stages.map stageReportToValue) result.stages :=
    List.forall₂_map_left_iff.mpr (List.forall₂_same.mpr fun report _ => reportReads_toValue report)
  have hdiagnostics := mapM_map_ok diagnosticFromValue_toValue result.diagnostics
  have hevidence := mapM_map_ok evidenceFromValue_toValue result.evidence
  refine ⟨_, [("earned", .number result.score.earned), ("possible", .number result.score.possible)],
    [("executor_kind", .string result.provenance.executorKind.asStr)] ++
      (result.provenance.nodeId.map fun nodeId => ("node_id", .string nodeId.value)).toList ++
      [("production_eligible", .bool result.provenance.productionEligible),
        ("runtime_digest", .string result.provenance.runtimeDigest.value)], rfl, ?_⟩
  -- the node is the one member that a document may lack
  rcases hnode : result.provenance.nodeId with _ | nodeId
  all_goals
    exact {
      scoreObject := by simp [field, Json.get?_cons, scoreToValue]
      provenanceObject := by simp [field, Json.get?_cons, provenanceToValue, hnode]
      identity := by
        simp [identityFromMembers, stringField, field, asStr, Json.get?_cons, hmatch, pure,
          Except.pure, EvaluationResult.fields]
      status := by simp [stringField, field, asStr, Json.get?_cons, EvaluationResult.fields]
      verdict := by simp [stringField, field, asStr, Json.get?_cons, EvaluationResult.fields]
      earned := by simp [u64Field, field, Json.get?_cons, EvaluationResult.fields, hearned']
      possible := by simp [u64Field, field, Json.get?_cons, EvaluationResult.fields, hpossible']
      stages := ⟨_, by simp [field, Json.get?_cons], hstages⟩
      usage := ⟨usageToValue result.usage, by simp [field, Json.get?_cons],
        usageReads_toValue _⟩
      diagnostics := ⟨_, by simp [field, Json.get?_cons], hdiagnostics⟩
      evidence := ⟨_, by simp [field, Json.get?_cons], hevidence⟩
      executorKind := by simp [stringField, field, asStr, Json.get?_cons, EvaluationResult.fields]
      productionEligible := by simp [field, Json.get?_cons, EvaluationResult.fields]
      runtimeDigest := by
        simp [stringField, field, asStr, Json.get?_cons, EvaluationResult.fields, hmatch]
      nodeId := by
        simp [optionalField, Json.get?_cons, Json.get?_nil, EvaluationResult.fields, hnode,
          nodeIdFromValue, asStr, pure, Except.pure] }

/-- **Round trip of documents.** The document of a result reads back as the result. -/
theorem resultFromValue_toValue (result : EvaluationResult) :
    resultFromValue (resultToValue result) = .ok result := by
  rw [resultFromValue_of_reads (resultReads_toValue result) result.fields_bounded,
    result.build_fields]

end OpenOJ
