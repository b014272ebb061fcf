import OpenOJ.Storage.Creation
import Mathlib.Data.List.Dedup

/-!
# Required capabilities

A request's capabilities pass through four definitions: the token pattern of the schema and the
parser of the domain, which agree (`Schema.capability_value`), and the two functions of the
migration, which ask for more. `openoj_valid_required_capabilities` checks a task's array, and
`openoj_extract_required_capabilities` computes the array of a stored payload
(`extractRequiredCapabilities`).

What the two functions ask for is one condition, `CanonicalCapabilities`: there is at least one,
they are in strictly increasing byte order, and none has an underscore or a colon.

* `validRequiredCapabilities_iff`: the `CHECK` accepts the array of a request exactly when its
  capabilities are canonical;
* `extractRequiredCapabilities_iff`: the backfill computes the array of a stored request exactly
  then, and it is the one in the request;
* `enqueued_iff`: a decoded request can be enqueued exactly then. The array goes in as the request
  lists it, and nothing sorts it; `unsortedRequest_refused` is a request that is turned away.

The backfill reads a payload as a document of its own, so the second fact rests on an assumption
about the database's reader (`ReadsRequests`).
-/

namespace OpenOJ

open Outcome Text Regex

/-! ### The backfill -/

/-- Why the backfill stops the migration. -/
inductive BackfillError where
  /-- The payload is no text, or no JSON. -/
  | document
  | raised (message : String)
  deriving DecidableEq, Repr

/-- `document -> 'name'`; only objects have members. -/
def member? (document : Json.Value) (name : String) : Option Json.Value :=
  document.asObject?.bind fun members => Json.get? members name

/-- A row of `jsonb_array_elements_text`: `NULL` for `null`, a string's own text, the text of
any other document. -/
def elementText : Json.Value → Option String
  | .null => none
  | .string s => some s
  | v => some (String.ofList (Json.print v))

/-- `ORDER BY value`; text is compared byte by byte. -/
def textLe (s t : String) : Bool := decide (bytes s ≤ bytes t)

/-- `openoj_extract_required_capabilities`; `jsonb` is `convert_from(payload, 'UTF8')::jsonb`. -/
def extractRequiredCapabilities (jsonb : List UInt8 → Option Json.Value) (payload : List UInt8) :
    Except BackfillError (List String) := do
  let document ← orRefuse .document (jsonb payload)
  let elements ← match member? document "required_capabilities" with
    -- the type of a missing member is `NULL`, which is not `<> 'array'`
    | none => .ok []
    | some (.array items) => .ok items
    | some _ => .error (.raised "required_capabilities must be an array")
  let values := elements.map elementText
  -- `count(DISTINCT value)` leaves `NULL` out, so a row without text fails the comparison
  let present := values.filterMap id
  refuseIf (¬(1 ≤ values.length ∧ values.length ≤ 64) ∨ values.length ≠ present.dedup.length)
    (.raised "required_capabilities must contain 1..64 unique values")
  let capabilities := present.mergeSort textLe
  refuseIf (¬∀ c ∈ capabilities,
    taskCapabilityPattern.accepts (bytes c) = true ∧ (bytes c).length ≤ 64)
    (.raised "required_capabilities contains an invalid capability")
  return capabilities

/-! ### What the migration asks of capabilities -/

/-- Capabilities as the migration wants them: at least one, in strictly increasing byte
order, without underscore or colon. -/
structure CanonicalCapabilities (request : EvaluationRequest) : Prop where
  nonempty : request.requiredCapabilities ≠ []
  sorted : request.requiredCapabilities.Pairwise fun c d => bytes c.value < bytes d.value
  plain : ∀ c ∈ request.requiredCapabilities, ∀ b ∈ bytes c.value, b ≠ 95 ∧ b ≠ 58

/-- Of the tokens of the domain, the pattern of the migration accepts those without
underscore and colon. -/
theorem taskCapabilityPattern_accepts (c : Capability) :
    taskCapabilityPattern.accepts (bytes c.value) = true ↔
      ∀ b ∈ bytes c.value, b ≠ 95 ∧ b ≠ 58 := by
  have hlower : ∀ b : UInt8, isAsciiLowercase b = true →
      isSeparator b = false ∧ Schema.isLowerAlphanumeric b = true := by
    rw [forall_byte]
    decide +kernel
  have hfewer : ∀ b : UInt8, (b == 46 || b == 45) = true → isSeparator b = true := by
    rw [forall_byte]
    decide +kernel
  have hplain : ∀ b : UInt8, (isSeparator b = true → (b == 46 || b == 45) = true) ↔
      b ≠ 95 ∧ b ≠ 58 := by
    rw [forall_byte]
    decide +kernel
  obtain ⟨-, first, rest, hbytes, hfirst, hrest⟩ := validateLowerToken_eq_ok.mp c.valid
  have hscan : scanSegments Schema.isLowerAlphanumeric isSeparator true (bytes c.value) = true := by
    simp [hbytes, scanSegments, hlower first hfirst, hrest]
  rw [accepts_iff, taskCapabilityPattern,
    matches_segments fun b hb => isSeparator_not_lowerAlphanumeric b (hfewer b hb),
    scanSegments_of_fewer isSeparator_not_lowerAlphanumeric hfewer]
  simp only [hscan, true_and, hplain]

/-- The loop of the `CHECK` accepts acceptable capabilities in strictly increasing order. -/
private theorem validCapabilitiesFrom_eq_true {capabilities : List String}
    (previous : Option String) :
    validCapabilitiesFrom previous capabilities = true ↔
      (∀ c ∈ capabilities, taskCapabilityPattern.accepts (bytes c) = true ∧
        (bytes c).length ≤ 64) ∧
        (previous.toList ++ capabilities).Pairwise fun c d => bytes c < bytes d := by
  induction capabilities generalizing previous with
  | nil => cases previous <;> simp [validCapabilitiesFrom]
  | cons c rest ih =>
    have hpairwise : (previous.toList ++ c :: rest).Pairwise (fun c d => bytes c < bytes d) ↔
        previous.all (fun previous => decide (bytes previous < bytes c)) = true ∧
          (c :: rest).Pairwise fun c d => bytes c < bytes d := by
      cases previous with
      | none => simp
      | some previous =>
        simp only [Option.toList_some, List.singleton_append, List.pairwise_cons,
          Option.all_some, decide_eq_true_eq]
        refine ⟨fun ⟨h, hrest⟩ => ⟨h c List.mem_cons_self, hrest⟩, fun ⟨h, hrest⟩ => ⟨?_, hrest⟩⟩
        intro d hd
        rcases List.mem_cons.mp hd with rfl | hd
        · exact h
        · exact List.lt_trans h (hrest.1 d hd)
    rw [hpairwise, validCapabilitiesFrom]
    simp only [Bool.and_eq_true, decide_eq_true_eq, ih, Option.toList_some, List.singleton_append,
      List.forall_mem_cons]
    tauto

section Request

variable {request : EvaluationRequest}

private theorem forall_mem_values {P : String → Prop} :
    (∀ s ∈ request.requiredCapabilities.map (·.value), P s) ↔
      ∀ c ∈ request.requiredCapabilities, P c.value := by
  simp

/-- A request lists at most 32 different capabilities. -/
private theorem values_bounds (request : EvaluationRequest) :
    (request.requiredCapabilities.map (·.value)).length ≤ 32 ∧
      (request.requiredCapabilities.map (·.value)).Nodup := by
  obtain ⟨-, hlength, hnodup⟩ := EvaluationRequestParts.validate_eq_ok.mp request.valid
  exact ⟨by simpa [maxCapabilities] using hlength, hnodup.map fun _ _ h => Capability.ext h⟩

/-- What both functions of the migration check of one capability. -/
private theorem acceptable_iff :
    (∀ c ∈ request.requiredCapabilities, taskCapabilityPattern.accepts (bytes c.value) = true ∧
      (bytes c.value).length ≤ 64) ↔
      ∀ c ∈ request.requiredCapabilities, ∀ b ∈ bytes c.value, b ≠ 95 ∧ b ≠ 58 := by
  refine forall₂_congr fun c _ => ?_
  rw [taskCapabilityPattern_accepts]
  exact and_iff_left c.length_le

/-- **The `CHECK`** accepts the array of a request exactly when its capabilities are
canonical. -/
theorem validRequiredCapabilities_iff :
    validRequiredCapabilities (request.requiredCapabilities.map (·.value)) = true ↔
      CanonicalCapabilities request := by
  have hlength := (values_bounds request).1
  have hbound : (1 ≤ (request.requiredCapabilities.map (·.value)).length ∧
      (request.requiredCapabilities.map (·.value)).length ≤ 64) ↔
        request.requiredCapabilities ≠ [] := by
    rw [← List.length_pos_iff, List.length_map] at *
    omega
  simp only [validRequiredCapabilities, Bool.and_eq_true, decide_eq_true_eq, hbound,
    validCapabilitiesFrom_eq_true, forall_mem_values, acceptable_iff, Option.toList_none,
    List.nil_append, List.pairwise_map]
  exact ⟨fun ⟨h₁, h₂, h₃⟩ => ⟨h₁, h₃, h₂⟩, fun ⟨h₁, h₂, h₃⟩ => ⟨h₁, h₃, h₂⟩⟩

/-- Sorting different capabilities leaves them alone when they increase strictly already. -/
private theorem mergeSort_eq_self_iff {values : List String} (hnodup : values.Nodup) :
    values.mergeSort textLe = values ↔ values.Pairwise fun s t => bytes s < bytes t := by
  constructor
  · intro h
    have hsorted : (values.mergeSort textLe).Pairwise fun s t => textLe s t := by
      refine List.pairwise_mergeSort ?_ ?_ values
      · intro s t r hst htr
        simp only [textLe, decide_eq_true_eq] at hst htr ⊢
        exact List.le_trans hst htr
      · intro s t
        simpa [textLe] using List.le_total (bytes s) (bytes t)
    rw [h] at hsorted
    refine (hsorted.and hnodup).imp fun {s t} hst => ?_
    obtain ⟨hle, hne⟩ := hst
    refine Classical.byContradiction fun hlt => hne (bytes_injective ?_)
    exact List.le_antisymm (of_decide_eq_true hle) (List.not_lt.mp hlt)
  · intro h
    refine List.mergeSort_of_pairwise (h.imp fun {s t} hlt => ?_)
    exact decide_eq_true (List.le_of_lt hlt)

end Request

/-! ### The backfill of a stored payload -/

section Extract

variable [Wire] {jsonb : List UInt8 → Option Json.Value} {request : EvaluationRequest}
  {payload : List UInt8}

/-- What is assumed of the database's JSON: it reads the text of a request document, and a
member of the document that is an array of strings is read as it is. -/
def ReadsRequests (jsonb : List UInt8 → Option Json.Value) : Prop :=
  ∀ v doc text, Schema.evaluationRequest v = true → Json.ordered v = true →
    Wire.request.fromValue v = some doc → Wire.request.toVec doc = some text →
      ∃ document, jsonb text = some document ∧ ∀ name (values : List String),
        member? v name = some (.array (values.map .string)) →
          member? document name = some (.array (values.map .string))

/-- **The backfill** computes the array of a request exactly when its capabilities are
canonical. -/
theorem extractRequiredCapabilities_iff (hj : ReadsRequests jsonb)
    (hpayload : encodeEvaluationRequest request = .ok payload) :
    extractRequiredCapabilities jsonb payload =
        .ok (request.requiredCapabilities.map (·.value)) ↔
      CanonicalCapabilities request := by
  obtain ⟨-, ⟨doc, hdoc, htext⟩, -⟩ := encodeWire_eq_ok.mp hpayload
  obtain ⟨document, hdocument, hmember⟩ := hj _ doc payload
    (evaluationRequest_toValue (mediaTypeAccepted_of_encode hpayload))
    (ordered_requestToValue request) hdoc htext
  have hvalue : member? (requestToValue request) "required_capabilities" =
      some (.array ((request.requiredCapabilities.map (·.value)).map .string)) := by
    rw [List.map_map]
    rfl
  have helements := hmember _ _ hvalue
  obtain ⟨hlength, hnodup⟩ := values_bounds request
  rw [← validRequiredCapabilities_iff]
  generalize request.requiredCapabilities.map (·.value) = values at helements hlength hnodup ⊢
  have htexts : (values.map Json.Value.string).map elementText = values.map some := by
    rw [List.map_map]
    rfl
  have hpresent : (values.map some).filterMap id = values := by simp [List.filterMap_map]
  simp only [extractRequiredCapabilities, hdocument, orRefuse_some, ok_bind, helements, htexts,
    hpresent, List.length_map, hnodup.dedup, bind_eq_ok, refuseIf_eq_ok, exists_const,
    List.mem_mergeSort, pure, Except.pure, Except.ok.injEq, mergeSort_eq_self_iff hnodup,
    validRequiredCapabilities, Bool.and_eq_true, decide_eq_true_eq, validCapabilitiesFrom_eq_true,
    Option.toList_none, List.nil_append, ne_eq, not_true_eq_false, or_false, not_not]

/-! ### Enqueuing -/

/-- What it takes to enqueue a request: its array passes the task table's `CHECK`, the backfill
computes the same array from the stored payload, and from every reachable database in which
the request is new its creation succeeds. -/
structure Enqueued (jsonb : List UInt8 → Option Json.Value) (request : EvaluationRequest) :
    Prop where
  checked : validRequiredCapabilities (request.requiredCapabilities.map (·.value)) = true
  extracted : ∃ payload, encodeEvaluationRequest request = .ok payload ∧
    extractRequiredCapabilities jsonb payload = .ok (request.requiredCapabilities.map (·.value))
  created : ∀ db createdAt, store.Reachable db → Unused db request →
    ReferencesAgree db request →
      ∃ snapshot db', createEvaluation ⟨request, createdAt⟩ db = (.ok snapshot, db')

/-- **Every decoded request with canonical capabilities can be enqueued**, and no other. -/
theorem enqueued_iff (hl : LosslessRequests) (hj : ReadsRequests jsonb) {input : List UInt8}
    (hdecode : decodeEvaluationRequest input = .ok request) :
    Enqueued jsonb request ↔ CanonicalCapabilities request := by
  constructor
  · exact fun h => validRequiredCapabilities_iff.mp h.checked
  · intro h
    have hchecked := validRequiredCapabilities_iff.mpr h
    obtain ⟨payload, hpayload⟩ := exists_encode hl (mediaTypeAccepted_of_decode hdecode)
    refine ⟨hchecked, ⟨payload, hpayload, (extractRequiredCapabilities_iff hj hpayload).mpr h⟩,
      fun db createdAt hr hunused hreferences => ?_⟩
    have hcreate : ∃ snapshot db', createEvaluation ⟨request, createdAt⟩ db =
        (.ok snapshot, db') ∧ Created db db' request payload createdAt.value :=
      createEvaluation_ok hl hr hunused hreferences hpayload hchecked
    obtain ⟨snapshot, db', hcreate, -⟩ := hcreate
    exact ⟨snapshot, db', hcreate⟩

end Extract

section Json

attribute [local instance] jsonWire

/-- Read as plain JSON, every payload is read as it was written. -/
theorem readsRequests_json : ReadsRequests Json.ofBytes := by
  intro v doc text _ _ hdoc htext
  obtain rfl := Option.some.inj hdoc
  obtain rfl := Option.some.inj htext
  exact ⟨v, Json.ofBytes_toBytes v, fun _ _ h => h⟩

/-- The text of a request the schema accepts decodes to the request. -/
theorem exists_decode (request : EvaluationRequest) (hmedia : request.MediaTypeAccepted) :
    ∃ input, encodeEvaluationRequest request = .ok input ∧
      decodeEvaluationRequest input = .ok request := by
  have hl : LosslessRequests := WireType.json_lossless _
  obtain ⟨input, hinput⟩ := exists_encode hl hmedia
  exact ⟨input, hinput, decode_of_encode hl hinput⟩

/-- The fixture can be enqueued. -/
theorem enqueued_fixture : Enqueued Json.ofBytes fixtureRequest := by
  obtain ⟨input, -, hdecode⟩ := exists_decode fixtureRequest fixtureParts_mediaType
  refine (enqueued_iff (WireType.json_lossless _) readsRequests_json hdecode).mpr ⟨?_, ?_, ?_⟩
  · decide
  · decide
  · decide +kernel

/-- The fixture, asking for a second capability that comes before the first. -/
def unsortedRequest : EvaluationRequest where
  toEvaluationRequestParts :=
    { fixtureParts with
      requiredCapabilities := [⟨"runtime.cpp", by decide +kernel⟩, fixtureCapability] }
  valid := by decide +kernel

/-- A request that decodes, that the empty store refuses, and whose backfill is another
array. -/
theorem unsortedRequest_refused :
    ∃ input, decodeEvaluationRequest input = .ok unsortedRequest ∧
      validRequiredCapabilities (unsortedRequest.requiredCapabilities.map (·.value)) = false ∧
        extractRequiredCapabilities Json.ofBytes input ≠
          .ok (unsortedRequest.requiredCapabilities.map (·.value)) ∧
          createEvaluation ⟨unsortedRequest, ⟨0, by decide⟩⟩ .empty =
            (.error .unavailable, .empty) := by
  obtain ⟨input, hinput, hdecode⟩ := exists_decode unsortedRequest fixtureParts_mediaType
  have hrefused : validRequiredCapabilities
      (unsortedRequest.requiredCapabilities.map (·.value)) = false := by decide +kernel
  refine ⟨input, hdecode, hrefused, fun hextract => ?_, ?_⟩
  · have hcanonical := (extractRequiredCapabilities_iff readsRequests_json hinput).mp hextract
    rw [← validRequiredCapabilities_iff, hrefused] at hcanonical
    cases hcanonical
  · exact createEvaluation_unavailable (WireType.json_lossless _) store.reachable_start (.empty _)
      (.empty _) hinput hrefused

end Json
end OpenOJ
