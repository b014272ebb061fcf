import OpenOJ.Protocol.Codec
import OpenOJ.Protocol.Patterns
import Mathlib.Data.List.Nodup

/-!
# The request message

`requestToValue` and `requestFromValue` are the two halves of the request codec between a domain
request and its document, with one function for each object of the schema (`artifactToValue`,
`problemVersionToValue`, `submissionToValue`, `runtimeToValue`, `planToValue`, `policyToValue`);
`encodeEvaluationRequest` and `decodeEvaluationRequest` go on to bytes. Objects are written in key
order.

Three facts about the document of a request make up the proofs about its bytes:

* `requestFromValue_toValue`: it reads back as the request;
* `evaluationRequest_toValue`: the schema accepts it, if it accepts the media type of the source
  (`EvaluationRequest.MediaTypeAccepted`), and `openEvaluationMessage_toValue` says the same of the
  schema's root, where a message must not be a result as well;
* `length_requestToValue_le`: its text is within the message limit, whatever the request, since
  every part of it is bounded.

For the bytes, under the assumption that the generated type loses nothing (`LosslessRequests`):

* `decode_of_encode`: what was encoded decodes to the same request;
* `exists_encode`: a request whose media type the schema accepts is encoded;
* `mediaTypeAccepted_of_decode`: what was decoded has such a media type, and so can be encoded
  again, under any identity of an attempt.

The last section builds a request, and the one for the attempt after it (`fixtureRequest`,
`fixtureNext`), on which the conditions of later results are discharged.
-/

namespace OpenOJ

open Outcome Text

/-! ### From a request to its document -/

/-- `artifact_to_value`. -/
def artifactToValue (artifact : ArtifactRef) : Json.Value :=
  .object [("artifact_id", .string artifact.artifactId.value),
    ("digest", .string artifact.digest.value),
    ("media_type", .string artifact.mediaType.value),
    ("sensitivity", .string artifact.sensitivity.asStr),
    ("size_bytes", .number artifact.sizeBytes)]

def problemVersionToValue (reference : ProblemVersionRef) : Json.Value :=
  .object [("digest", .string reference.digest.value),
    ("problem_id", .string reference.problemId.value),
    ("problem_version_id", .string reference.problemVersionId.value)]

def submissionToValue (reference : SubmissionRef) : Json.Value :=
  .object [("source", artifactToValue reference.source),
    ("submission_id", .string reference.submissionId.value)]

def runtimeToValue (reference : RuntimeRef) : Json.Value :=
  .object [("digest", .string reference.digest.value),
    ("runtime_id", .string reference.runtimeId.value)]

def planToValue (plan : EvaluationPlan) : Json.Value :=
  .object [("profile", .string plan.profile.asStr),
    ("stages", .array (plan.stages.map fun stage => .string stage.asStr))]

def policyToValue (policy : ResourcePolicy) : Json.Value :=
  .object [("cpu_time_ms", .number policy.cpuTimeMs),
    ("memory_bytes", .number policy.memoryBytes),
    ("network", .string policy.network.asStr),
    ("output_bytes", .number policy.outputBytes),
    ("process_limit", .number policy.processLimit),
    ("wall_time_ms", .number policy.wallTimeMs)]

/-- `request_to_value`. -/
def requestToValue (request : EvaluationRequest) : Json.Value :=
  .object [("attempt_id", .string request.attemptId.value),
    ("attempt_number", .number request.attemptNumber),
    ("evaluation_id", .string request.evaluationId.value),
    ("idempotency_key", .string request.idempotencyKey.value),
    ("message_type", .string "evaluation_request"),
    ("plan", planToValue request.plan),
    ("policy", policyToValue request.policy),
    ("problem_version", problemVersionToValue request.problemVersion),
    ("request_id", .string request.requestId.value),
    ("required_capabilities",
      .array (request.requiredCapabilities.map fun capability => .string capability.value)),
    ("runtime", runtimeToValue request.runtime),
    ("schema_version", .string schemaVersion),
    ("submission", submissionToValue request.submission)]

/-! ### From a document to its request -/

/-- The sensitivity `artifact_from_value` reads. -/
def sensitivityFromStr : String → Except ProtocolError ArtifactSensitivity
  | "public" => .ok .publicArtifact
  | "private" => .ok .privateArtifact
  | "hidden" => .ok .hiddenArtifact
  | _ => .error .schemaViolation

/-- `artifact_from_value`. -/
def artifactFromValue (value : Json.Value) : Except ProtocolError ArtifactRef := do
  let artifact ← asObject value
  let sensitivity ← sensitivityFromStr (← stringField artifact "sensitivity")
  let artifactId ← fromDomain (OpaqueId.parse "artifact_id" (← stringField artifact "artifact_id"))
  let digest ← fromDomain (ContentDigest.parse (← stringField artifact "digest"))
  let mediaType ← fromDomain (MediaType.parse (← stringField artifact "media_type"))
  let sizeBytes ← u64Field artifact "size_bytes"
  fromDomain (ArtifactRef.new artifactId digest mediaType sizeBytes sensitivity)

/-- `stage_kind_from_value`. -/
def stageKindFromValue (value : Json.Value) : Except ProtocolError StageKind := do
  match ← asStr value with
  | "prepare" => .ok .prepare
  | "build" => .ok .build
  | "run" => .ok .run
  | "check" => .ok .check
  | "aggregate" => .ok .aggregate
  | _ => .error .schemaViolation

/-- One item of `required_capabilities`. -/
def capabilityFromValue (value : Json.Value) : Except ProtocolError Capability := do
  fromDomain (Capability.parse (← asStr value))

/-- `u32::try_from` of an unsigned 64-bit value. -/
def u32FromU64 (value : Nat) : Except ProtocolError Nat :=
  if value ≤ u32Max then .ok value else .error .schemaViolation

/-- `request_from_value`. -/
def requestFromValue (value : Json.Value) : Except ProtocolError EvaluationRequest := do
  let object ← asObject value
  let problem ← asObject (← field object "problem_version")
  let submission ← asObject (← field object "submission")
  let source ← artifactFromValue (← field submission "source")
  let runtime ← asObject (← field object "runtime")
  let plan ← asObject (← field object "plan")
  let policy ← asObject (← field object "policy")
  let stages ← (← asArray (← field plan "stages")).mapM stageKindFromValue
  refuseIf ((← stringField plan "profile") ≠ "algorithm_batch") .schemaViolation
  let requiredCapabilities ←
    (← asArray (← field object "required_capabilities")).mapM capabilityFromValue
  let attemptNumber ← u32FromU64 (← u64Field object "attempt_number")
  let processLimit ← u32FromU64 (← u64Field policy "process_limit")
  refuseIf ((← stringField policy "network") ≠ "denied") .schemaViolation
  let requestId ← fromDomain (OpaqueId.parse "request_id" (← stringField object "request_id"))
  let idempotencyKey ← fromDomain (IdempotencyKey.parse (← stringField object "idempotency_key"))
  let evaluationId ←
    fromDomain (OpaqueId.parse "evaluation_id" (← stringField object "evaluation_id"))
  let attemptId ← fromDomain (OpaqueId.parse "attempt_id" (← stringField object "attempt_id"))
  let problemId ← fromDomain (OpaqueId.parse "problem_id" (← stringField problem "problem_id"))
  let problemVersionId ← fromDomain
    (OpaqueId.parse "problem_version_id" (← stringField problem "problem_version_id"))
  let problemDigest ← fromDomain (ContentDigest.parse (← stringField problem "digest"))
  let submissionId ←
    fromDomain (OpaqueId.parse "submission_id" (← stringField submission "submission_id"))
  let runtimeId ← fromDomain (OpaqueId.parse "runtime_id" (← stringField runtime "runtime_id"))
  let runtimeDigest ← fromDomain (ContentDigest.parse (← stringField runtime "digest"))
  let plan ← fromDomain (EvaluationPlan.tryAlgorithmBatch stages)
  let policy ← fromDomain (ResourcePolicy.new
    { cpuTimeMs := ← u64Field policy "cpu_time_ms"
      wallTimeMs := ← u64Field policy "wall_time_ms"
      memoryBytes := ← u64Field policy "memory_bytes"
      outputBytes := ← u64Field policy "output_bytes"
      processLimit := processLimit
      network := .denied })
  fromDomain (EvaluationRequest.new
    { requestId, idempotencyKey, evaluationId, attemptId, attemptNumber
      problemVersion := ⟨problemId, problemVersionId, problemDigest⟩
      submission := ⟨submissionId, source⟩
      runtime := ⟨runtimeId, runtimeDigest⟩
      plan, policy, requiredCapabilities })

/-! ### The document reads back -/

@[simp]
theorem artifactFromValue_toValue (artifact : ArtifactRef) :
    artifactFromValue (artifactToValue artifact) = .ok artifact := by
  obtain ⟨artifactId, digest, mediaType, sizeBytes, sensitivity, bounded⟩ := artifact
  have hsize : sizeBytes ≤ Json.Value.u64Max := Nat.le_trans bounded (by decide)
  have hsensitivity : sensitivityFromStr sensitivity.asStr = .ok sensitivity := by
    cases sensitivity <;> rfl
  simp [artifactFromValue, artifactToValue, asObject, stringField, field, u64Field, asStr,
    Json.get?_cons, hsensitivity, Json.Value.asU64?_number hsize, ArtifactRef.new, bounded]

theorem stageKindFromValue_asStr (stage : StageKind) :
    stageKindFromValue (.string stage.asStr) = .ok stage := by
  cases stage <;> rfl

private theorem capabilityFromValue_value (c : Capability) :
    capabilityFromValue (.string c.value) = .ok c := by
  simp [capabilityFromValue, asStr]

private theorem asU64?_of_le {n maximum : Nat} (h : n ≤ maximum)
    (hmax : maximum ≤ Json.Value.u64Max) : (Json.Value.number n).asU64? = some n :=
  Json.Value.asU64?_number (Nat.le_trans h hmax)

/-- **Round trip of documents.** The document of a request reads back as the request. -/
theorem requestFromValue_toValue (request : EvaluationRequest) :
    requestFromValue (requestToValue request) = .ok request := by
  obtain ⟨⟨-, hnumber⟩, -, -⟩ := EvaluationRequestParts.validate_eq_ok.mp request.valid
  obtain ⟨⟨-, hcpu⟩, ⟨-, hwall⟩, ⟨-, hmemory⟩, ⟨-, houtput⟩, ⟨-, hprocess⟩⟩ :=
    request.policy.bounds
  have hnumber' := asU64?_of_le hnumber (by decide)
  have hcpu' := asU64?_of_le hcpu (by decide)
  have hwall' := asU64?_of_le hwall (by decide)
  have hmemory' := asU64?_of_le hmemory (by decide)
  have houtput' := asU64?_of_le houtput (by decide)
  have hprocess' := asU64?_of_le hprocess (by decide)
  have hlimit : request.policy.processLimit ≤ u32Max := Nat.le_trans hprocess (by decide)
  have hstages : (request.plan.stages.map fun stage => Json.Value.string stage.asStr).mapM
      stageKindFromValue = .ok request.plan.stages :=
    mapM_map_ok stageKindFromValue_asStr _
  have hcapabilities := mapM_map_ok capabilityFromValue_value request.requiredCapabilities
  have hpolicy : ResourcePolicy.new ⟨request.policy.cpuTimeMs, request.policy.wallTimeMs,
      request.policy.memoryBytes, request.policy.outputBytes, request.policy.processLimit,
      .denied⟩ = .ok request.policy := ResourcePolicy.new_parts request.policy
  have hrequest := EvaluationRequest.new_parts request
  simp [requestFromValue, requestToValue, problemVersionToValue, submissionToValue,
    runtimeToValue, planToValue, policyToValue, asObject, asArray, stringField, field, u64Field,
    Json.get?_cons, hnumber', hcpu', hwall', hmemory', houtput', hprocess', u32FromU64, hnumber,
    hlimit, hstages, hcapabilities, hpolicy, asStr, EvaluationProfile.asStr, NetworkPolicy.asStr,
    refuseIf, hrequest]

/-! ### The document against the schema -/

private theorem orderedItems_strings {α : Type} (f : α → String) (l : List α) :
    Json.orderedItems (l.map fun a => .string (f a)) = true := by
  induction l with
  | nil => rfl
  | cons a l ih => simp [Json.orderedItems, Json.ordered, ih]

/-- The document lists its members in key order. -/
theorem ordered_requestToValue (request : EvaluationRequest) :
    Json.ordered (requestToValue request) = true := by
  simp only [requestToValue, artifactToValue, problemVersionToValue, submissionToValue,
    runtimeToValue, planToValue, policyToValue, Json.ordered, Json.orderedMembers,
    orderedItems_strings, List.head?_cons, List.head?_nil, Option.all_some, Option.all_none,
    Bool.and_true, Bool.true_and, Bool.and_eq_true, decide_eq_true_eq]
  decide

/-- The one thing the schema asks of a request that the domain does not. -/
def EvaluationRequest.MediaTypeAccepted (request : EvaluationRequest) : Prop :=
  Schema.mediaType (.string request.submission.source.mediaType.value) = true

private theorem evaluationPlan_toValue (plan : EvaluationPlan) :
    Schema.evaluationPlan (planToValue plan) = true := by
  obtain ⟨profile, stages, rfl⟩ := plan
  cases profile
  decide

/-- Of an artifact, only the media type is left to the schema. -/
theorem artifactRef_toValue (artifact : ArtifactRef) :
    Schema.artifactRef (artifactToValue artifact) = true ↔
      Schema.mediaType (.string artifact.mediaType.value) = true := by
  obtain ⟨artifactId, digest, mediaType, sizeBytes, sensitivity, bounded⟩ := artifact
  have hsize : (sizeBytes : Int) ≤ 1099511627776 := by
    unfold maxArtifactBytes at bounded
    omega
  have hsensitivity : Schema.artifactSensitivity (.string sensitivity.asStr) = true := by
    cases sensitivity <;> decide
  simp [Schema.artifactRef, artifactToValue, Schema.object, Schema.property, hsensitivity,
    Schema.integer, hsize]

private theorem resourcePolicy_toValue (policy : ResourcePolicy) :
    Schema.resourcePolicy (policyToValue policy) = true := by
  obtain ⟨⟨hcpu, hcpu'⟩, ⟨hwall, hwall'⟩, ⟨hmemory, hmemory'⟩, ⟨houtput, houtput'⟩,
    hprocess, hprocess'⟩ := policy.bounds
  have hnetwork : Schema.networkPolicy (.string policy.network.asStr) = true := by
    cases policy.network
    decide
  simp only [maxCpuTimeMs, maxWallTimeMs, maxMemoryBytes, maxOutputBytes, maxProcessLimit]
    at hcpu' hwall' hmemory' houtput' hprocess'
  simp [Schema.resourcePolicy, policyToValue, Schema.object, Schema.property, Schema.integer,
    hnetwork]
  omega

private theorem capabilities_toValue {capabilities : List Capability}
    (hlength : capabilities.length ≤ maxCapabilities) (hnodup : capabilities.Nodup) :
    let v := Json.Value.array (capabilities.map fun capability => .string capability.value)
    (Schema.array 0 32 Schema.capability v && Schema.uniqueItems v) = true := by
  have hvalues : (capabilities.map (·.value)).Nodup :=
    hnodup.map fun _ _ h => Capability.ext h
  have hfilter : (capabilities.map fun c => Json.Value.string c.value).filterMap
      Json.Value.asStr? = capabilities.map (·.value) := by
    simp [List.filterMap_map, Function.comp_def]
  have hall : ∀ c ∈ capabilities, Schema.capability (.string c.value) = true :=
    fun c _ => Schema.capability_value c
  unfold maxCapabilities at hlength
  simp [Schema.array, Schema.uniqueItems, hlength, hfilter, hvalues]

/-- A request whose media type the schema accepts is a valid request document. -/
theorem evaluationRequest_toValue {request : EvaluationRequest}
    (h : request.MediaTypeAccepted) :
    Schema.evaluationRequest (requestToValue request) = true := by
  obtain ⟨⟨hnumber, hnumber'⟩, hlength, hnodup⟩ :=
    EvaluationRequestParts.validate_eq_ok.mp request.valid
  have hnumber'' : (request.attemptNumber : Int) ≤ 4294967295 := by
    unfold u32Max at hnumber'
    omega
  have hcapabilities := capabilities_toValue hlength hnodup
  simp only at hcapabilities
  simp [Schema.evaluationRequest, Schema.requestProperties, requestToValue, Schema.object,
    Schema.property, Schema.integer, Schema.enumeration, Schema.schemaVersion, schemaVersion,
    problemVersionToValue, submissionToValue, runtimeToValue, Schema.problemVersionRef,
    Schema.submissionRef, Schema.runtimeRef, evaluationPlan_toValue, resourcePolicy_toValue,
    (artifactRef_toValue _).mpr h, hnumber'', hcapabilities]
  omega

/-- A request document is never a result document. -/
theorem evaluationResult_requestToValue (request : EvaluationRequest) :
    Schema.evaluationResult (requestToValue request) = false := by
  simp [Schema.evaluationResult, Schema.resultProperties, requestToValue, Schema.object,
    Schema.property]

theorem openEvaluationMessage_toValue {request : EvaluationRequest}
    (h : request.MediaTypeAccepted) :
    Schema.openEvaluationMessage (requestToValue request) = true := by
  simp [Schema.openEvaluationMessage, evaluationRequest_toValue h,
    evaluationResult_requestToValue]

/-! ### Its length -/

private theorem sizeBoundItems_capabilities (capabilities : List Capability) :
    Json.sizeBoundItems (capabilities.map fun c => .string c.value) ≤
      387 * capabilities.length := by
  induction capabilities with
  | nil => simp [Json.sizeBoundItems]
  | cons c capabilities ih =>
    have hc := c.length_le
    simp only [List.map_cons, Json.sizeBoundItems, Json.sizeBound, List.length_cons]
    omega

/-- The keys and constant names of a request document are short. -/
private theorem length_names :
    ∀ name ∈ ["artifact_id", "digest", "media_type", "sensitivity", "size_bytes",
      "attempt_id", "attempt_number", "evaluation_id", "idempotency_key", "message_type", "plan",
      "policy", "problem_version", "request_id", "required_capabilities", "runtime",
      "schema_version", "submission", "source", "submission_id", "problem_id",
      "problem_version_id", "runtime_id", "profile", "stages", "cpu_time_ms", "memory_bytes",
      "network", "output_bytes", "process_limit", "wall_time_ms", "evaluation_request",
      "openoj.evaluation/v0alpha1", "algorithm_batch", "prepare", "build", "run", "check",
      "aggregate", "denied"], (bytes name).length ≤ 26 := by
  decide

private theorem sizeBound_artifactToValue (artifact : ArtifactRef) :
    Json.sizeBound (artifactToValue artifact) ≤ 3000 := by
  have hid := artifact.artifactId.length_le
  have hdigest := artifact.digest.length_eq
  have hmedia := artifact.mediaType.length_le
  have hsize : (Json.printNumber artifact.sizeBytes).length ≤ 13 :=
    Json.length_printNumber_le (by omega)
      (Nat.lt_of_le_of_lt artifact.bounded (by decide))
  have hsensitivity : (bytes artifact.sensitivity.asStr).length ≤ 7 := by
    cases artifact.sensitivity <;> decide
  have hnames := length_names
  simp only [List.forall_mem_cons] at hnames
  unfold maxMediaTypeLength at hmedia
  simp only [artifactToValue, Json.sizeBound, Json.sizeBoundMembers]
  omega

private theorem sizeBound_planToValue (plan : EvaluationPlan) :
    Json.sizeBound (planToValue plan) ≤ 3000 := by
  obtain ⟨profile, stages, rfl⟩ := plan
  cases profile
  decide

private theorem sizeBound_policyToValue (policy : ResourcePolicy) :
    Json.sizeBound (policyToValue policy) ≤ 3000 := by
  obtain ⟨⟨-, hcpu⟩, ⟨-, hwall⟩, ⟨-, hmemory⟩, ⟨-, houtput⟩, ⟨-, hprocess⟩⟩ := policy.bounds
  have hdigits : ∀ {n maximum : Nat}, n ≤ maximum → maximum < 10 ^ 13 →
      (Json.printNumber n).length ≤ 13 := fun h hmax =>
    Json.length_printNumber_le (by omega) (Nat.lt_of_le_of_lt h hmax)
  have hcpu' := hdigits hcpu (by decide)
  have hwall' := hdigits hwall (by decide)
  have hmemory' := hdigits hmemory (by decide)
  have houtput' := hdigits houtput (by decide)
  have hprocess' := hdigits hprocess (by decide)
  have hnetwork : (bytes policy.network.asStr).length ≤ 6 := by
    cases policy.network
    decide
  have hnames := length_names
  simp only [List.forall_mem_cons] at hnames
  simp only [policyToValue, Json.sizeBound, Json.sizeBoundMembers]
  omega

/-- The text of a request is far within the message limit. -/
theorem length_requestToValue_le (request : EvaluationRequest) :
    (Json.toBytes (requestToValue request)).length ≤ maxEvaluationRequestBytes := by
  obtain ⟨⟨-, hnumber⟩, hlength, -⟩ := EvaluationRequestParts.validate_eq_ok.mp request.valid
  have hartifact := sizeBound_artifactToValue request.submission.source
  have hplan := sizeBound_planToValue request.plan
  have hpolicy := sizeBound_policyToValue request.policy
  have hcapabilities := sizeBoundItems_capabilities request.requiredCapabilities
  have hnumber' : (Json.printNumber request.attemptNumber).length ≤ 13 :=
    Json.length_printNumber_le (by omega) (Nat.lt_of_le_of_lt hnumber (by decide))
  have h₁ := request.requestId.length_le
  have h₂ := request.idempotencyKey.length_le
  have h₃ := request.evaluationId.length_le
  have h₄ := request.attemptId.length_le
  have h₅ := request.problemVersion.problemId.length_le
  have h₆ := request.problemVersion.problemVersionId.length_le
  have h₇ := request.problemVersion.digest.length_eq
  have h₈ := request.submission.submissionId.length_le
  have h₉ := request.runtime.runtimeId.length_le
  have h₁₀ := request.runtime.digest.length_eq
  have hnames := length_names
  simp only [List.forall_mem_cons] at hnames
  unfold maxCapabilities at hlength
  refine Nat.le_trans (Json.length_toBytes_le _) ?_
  simp only [requestToValue, problemVersionToValue, submissionToValue, runtimeToValue,
    schemaVersion, Json.sizeBound, Json.sizeBoundMembers, maxEvaluationRequestBytes]
  omega

/-! ### What a decoded request satisfies -/

/-- A member of an object document satisfies the schema of the property it is named by. -/
private theorem property_of_get? {properties : List Schema.Property}
    {members : List (String × Json.Value)} {name : String} {v : Json.Value}
    (h : Schema.object properties (.object members) = true)
    (hv : Json.get? members name = some v) :
    (properties.any fun p => p.name == name && p.schema v) = true := by
  simp only [Schema.object, Bool.and_eq_true, List.all_eq_true] at h
  exact h.2 _ (Json.mem_of_get? hv)

/-- Of the two messages, a document with a `submission` can only be a request. -/
private theorem evaluationRequest_of_field {members : List (String × Json.Value)}
    {submission : Json.Value}
    (h : Schema.openEvaluationMessage (.object members) = true)
    (hsubmission : Json.get? members "submission" = some submission) :
    Schema.evaluationRequest (.object members) = true := by
  have hresult : Schema.evaluationResult (.object members) = false := by
    rw [Bool.eq_false_iff]
    intro hresult
    have hproperty := property_of_get? hresult hsubmission
    simp [Schema.resultProperties, Schema.property] at hproperty
  simpa [Schema.openEvaluationMessage, hresult] using h

/-- The schema checks the media type of a request's source. -/
private theorem mediaType_of_members {members submission source : List (String × Json.Value)}
    {text : String} (h : Schema.openEvaluationMessage (.object members) = true)
    (hsubmission : Json.get? members "submission" = some (.object submission))
    (hsource : Json.get? submission "source" = some (.object source))
    (htext : Json.get? source "media_type" = some (.string text)) :
    Schema.mediaType (.string text) = true := by
  have hrequest := evaluationRequest_of_field h hsubmission
  have hsubmissionRef : Schema.submissionRef (.object submission) = true := by
    simpa [Schema.requestProperties, Schema.property] using
      property_of_get? hrequest hsubmission
  have hartifactRef : Schema.artifactRef (.object source) = true := by
    simpa [Schema.property] using property_of_get? hsubmissionRef hsource
  simpa [Schema.property] using property_of_get? hartifactRef htext

/-- The media type of a decoded artifact is the text of its `media_type`. -/
private theorem mediaType_of_artifactFromValue {value : Json.Value} {artifact : ArtifactRef}
    (h : artifactFromValue value = .ok artifact) :
    ∃ members, value = .object members ∧
      Json.get? members "media_type" = some (.string artifact.mediaType.value) := by
  simp only [artifactFromValue, bind_eq_ok, fromDomain_eq_ok, asObject, orRefuse_eq_ok,
    Json.Value.asObject?_eq_some] at h
  obtain ⟨members, rfl, _, -, _, -, _, -, _, -, _, -, _, -, text, htext, mediaType, hmedia, _, -,
    hnew⟩ := h
  simp only [stringField, bind_eq_ok, field, asStr, orRefuse_eq_ok,
    Json.Value.asStr?_eq_some] at htext
  obtain ⟨_, hget, rfl⟩ := htext
  have hvalue := MediaType.value_of_parse hmedia
  have hartifact : artifact.mediaType = mediaType := by
    unfold ArtifactRef.new at hnew
    split at hnew
    · exact congrArg ArtifactRef.mediaType (Except.ok.inj hnew).symm
    · cases hnew
  exact ⟨members, rfl, by rw [hartifact, hvalue]; exact hget⟩

/-- **Decoded requests are encodable documents.** What was read from a schema-valid document
has a media type the schema accepts. -/
theorem mediaTypeAccepted_of_requestFromValue {value : Json.Value} {request : EvaluationRequest}
    (h : requestFromValue value = .ok request)
    (hvalid : Schema.openEvaluationMessage value = true) : request.MediaTypeAccepted := by
  simp only [requestFromValue, bind_eq_ok, fromDomain_eq_ok, asObject, field, orRefuse_eq_ok,
    Json.Value.asObject?_eq_some, EvaluationRequest.new_eq_ok] at h
  obtain ⟨members, rfl, _, -, _, -, submissionValue, hsubmission, submission, rfl, sourceValue,
    hsource, source, hread, h⟩ := h
  -- the other members play no part
  repeat obtain ⟨_, -, h⟩ := h
  obtain ⟨sourceMembers, rfl, hmedia⟩ := mediaType_of_artifactFromValue hread
  have hsourceEq : request.submission.source = source := by rw [h]
  unfold EvaluationRequest.MediaTypeAccepted
  rw [hsourceEq]
  exact mediaType_of_members hvalid hsubmission hsource hmedia

/-! ### Bytes -/

section Codec

variable [Wire]

/-- `decode_evaluation_request`. -/
def decodeEvaluationRequest (input : List UInt8) : Except ProtocolError EvaluationRequest := do
  requestFromValue (← decodeWire Wire.request input maxEvaluationRequestBytes)

/-- `encode_evaluation_request`. -/
def encodeEvaluationRequest (request : EvaluationRequest) : Except ProtocolError (List UInt8) :=
  encodeWire Wire.request (requestToValue request) maxEvaluationRequestBytes

/-- The wire type of requests is lossless. -/
def LosslessRequests : Prop := Wire.request.Lossless Schema.evaluationRequest

/-- The schema accepts every request it ever let through. -/
theorem mediaTypeAccepted_of_decode {input : List UInt8} {request : EvaluationRequest}
    (h : decodeEvaluationRequest input = .ok request) : request.MediaTypeAccepted := by
  obtain ⟨value, hvalue, hrequest⟩ := bind_eq_ok.mp h
  exact mediaTypeAccepted_of_requestFromValue hrequest (decodeWire_eq_ok.mp hvalue).2.2

theorem mediaTypeAccepted_of_encode {payload : List UInt8} {request : EvaluationRequest}
    (h : encodeEvaluationRequest request = .ok payload) : request.MediaTypeAccepted := by
  exact mediaType_of_members (encodeWire_eq_ok.mp h).1 rfl rfl rfl

/-- An encoded request is bounded. -/
theorem length_of_encode {payload : List UInt8} {request : EvaluationRequest}
    (h : encodeEvaluationRequest request = .ok payload) :
    payload.length ≤ maxEvaluationRequestBytes :=
  (encodeWire_eq_ok.mp h).2.2

/-- **Every accepted request is encodable**: the domain's bounds leave its text within the
message limit. -/
theorem exists_encode {request : EvaluationRequest} (hl : LosslessRequests)
    (h : request.MediaTypeAccepted) :
    ∃ payload, encodeEvaluationRequest request = .ok payload :=
  exists_encodeWire hl (evaluationRequest_toValue h) (ordered_requestToValue request)
    (openEvaluationMessage_toValue h) (length_requestToValue_le request)

/-- **Round trip of bytes.** What was encoded decodes to the same request. -/
theorem decode_of_encode {payload : List UInt8} {request : EvaluationRequest}
    (hl : LosslessRequests) (h : encodeEvaluationRequest request = .ok payload) :
    decodeEvaluationRequest payload = .ok request := by
  have hvalue := decodeWire_of_encodeWire hl
    (evaluationRequest_toValue (mediaTypeAccepted_of_encode h))
    (ordered_requestToValue request) h
  rw [decodeEvaluationRequest, hvalue]
  exact requestFromValue_toValue request

/-- A request's text is never empty. -/
theorem encode_ne_nil {payload : List UInt8} {request : EvaluationRequest}
    (hl : LosslessRequests) (h : encodeEvaluationRequest request = .ok payload) :
    1 ≤ payload.length := by
  have hlen := length_of_encodeWire hl
    (evaluationRequest_toValue (mediaTypeAccepted_of_encode h))
    (ordered_requestToValue request) h
  exact hlen ▸ Json.length_toBytes_pos _

end Codec

/-! ### The fixture -/

def fixtureCapability : Capability := ⟨"algorithm.batch", by decide +kernel⟩

/-- The contents of `fixtures/evaluation-request.valid.json`. -/
def fixtureParts : EvaluationRequestParts where
  requestId := ⟨"req_01", by decide +kernel⟩
  idempotencyKey := ⟨"idem_01", by decide +kernel⟩
  evaluationId := ⟨"eval_01", by decide +kernel⟩
  attemptId := ⟨"attempt_01", by decide +kernel⟩
  attemptNumber := 1
  problemVersion :=
    { problemId := ⟨"problem_01", by decide +kernel⟩
      problemVersionId := ⟨"problem_version_01", by decide +kernel⟩
      digest := ⟨"sha256:1111111111111111111111111111111111111111111111111111111111111111",
        by decide +kernel⟩ }
  submission :=
    { submissionId := ⟨"submission_01", by decide +kernel⟩
      source :=
        { artifactId := ⟨"artifact_source_01", by decide +kernel⟩
          digest := ⟨"sha256:2222222222222222222222222222222222222222222222222222222222222222",
            by decide +kernel⟩
          mediaType := ⟨"text/x-c++src", by decide +kernel⟩
          sizeBytes := 128
          sensitivity := .privateArtifact
          bounded := by decide } }
  runtime :=
    { runtimeId := ⟨"runtime_cpp_01", by decide +kernel⟩
      digest := ⟨"sha256:3333333333333333333333333333333333333333333333333333333333333333",
        by decide +kernel⟩ }
  plan := ⟨.algorithmBatch, algorithmBatchStages, rfl⟩
  policy :=
    { cpuTimeMs := 1000
      wallTimeMs := 2000
      memoryBytes := 268435456
      outputBytes := 1048576
      processLimit := 64
      network := .denied
      valid := by decide +kernel }
  requiredCapabilities := [fixtureCapability]

/-- The request of the fixture. -/
def fixtureRequest : EvaluationRequest := ⟨fixtureParts, by decide +kernel⟩

/-- The fixture's request for a second attempt. -/
def fixtureNext : EvaluationRequest where
  toEvaluationRequestParts :=
    { fixtureParts with
      idempotencyKey := ⟨"idem_02", by decide +kernel⟩
      attemptId := ⟨"attempt_02", by decide +kernel⟩
      attemptNumber := 2 }
  valid := by decide +kernel

/-- The schema accepts the fixture's media type. -/
theorem fixtureParts_mediaType :
    Schema.mediaType (.string fixtureParts.submission.source.mediaType.value) = true := by
  decide +kernel

end OpenOJ
