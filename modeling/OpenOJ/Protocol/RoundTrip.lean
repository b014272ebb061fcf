import OpenOJ.Foundation.Coding
import OpenOJ.Protocol.Agreement

/-!
# Round trips of the two messages

Requests are encoded and decoded without loss in both directions, and results are encoded without
loss. The two directions are the laws of `OpenOJ.Foundation.Coding`:

* `inverts_result`, `inverts_request`: what was encoded decodes to the same message;
* `reencodes_request`: every request that decodes is encoded, as bytes that decode to it again.

`result_codec` and `request_codec` put them together with what they have as a consequence: encoded
messages share their bytes only when they are the same. Stored bytes are therefore compared where
the source means to compare messages.

The section before them has the facts about the document of a result that were left: it is in key
order (`ordered_resultToValue`), and the root of the schema accepts it exactly when the definition
of results does (`openEvaluationMessage_resultToValue`), since a result is never a request.
-/

namespace OpenOJ

open Outcome Coding

/-! ### The document of a result -/

private theorem orderedItems_map {α : Type} {f : α → Json.Value}
    (h : ∀ a, Json.ordered (f a) = true) (l : List α) : Json.orderedItems (l.map f) = true := by
  induction l with
  | nil => rfl
  | cons a l ih => simp [Json.orderedItems, h, ih]

private theorem ordered_usageToValue (usage : ResourceUsage) :
    Json.ordered (usageToValue usage) = true := by
  simp only [usageToValue, Json.ordered, Json.orderedMembers, List.head?_cons, List.head?_nil,
    Option.all_some, Option.all_none, Bool.and_true, Bool.true_and, Bool.and_eq_true,
    decide_eq_true_eq]
  decide

private theorem ordered_diagnosticToValue (diagnostic : Diagnostic) :
    Json.ordered (diagnosticToValue diagnostic) = true := by
  simp only [diagnosticToValue, Json.ordered, Json.orderedMembers, List.head?_cons, List.head?_nil,
    Option.all_some, Option.all_none, Bool.and_true, Bool.true_and, Bool.and_eq_true,
    decide_eq_true_eq]
  decide

private theorem ordered_evidenceToValue (evidence : EvidenceRef) :
    Json.ordered (evidenceToValue evidence) = true := by
  obtain ⟨id, kind, _ | artifact⟩ := evidence <;>
  · simp only [evidenceToValue, artifactToValue, Option.map_none, Option.map_some,
      Option.toList_none, Option.toList_some, List.nil_append, List.cons_append, Json.ordered,
      Json.orderedMembers, List.head?_cons, List.head?_nil, Option.all_some, Option.all_none,
      Bool.and_true, Bool.true_and, Bool.and_eq_true, decide_eq_true_eq]
    decide

private theorem ordered_stageReportToValue (report : StageReport) :
    Json.ordered (stageReportToValue report) = true := by
  have hdiagnostics := orderedItems_map ordered_diagnosticToValue report.diagnostics
  have hevidence := orderedItems_map ordered_evidenceToValue report.evidence
  have husage := ordered_usageToValue report.usage
  simp only [stageReportToValue, Json.ordered, Json.orderedMembers, hdiagnostics, hevidence,
    husage, List.head?_cons, List.head?_nil, Option.all_some, Option.all_none, Bool.and_true,
    Bool.true_and, Bool.and_eq_true, decide_eq_true_eq]
  decide

/-- The document lists its members in key order. -/
theorem ordered_resultToValue (result : EvaluationResult) :
    Json.ordered (resultToValue result) = true := by
  have hdiagnostics := orderedItems_map ordered_diagnosticToValue result.diagnostics
  have hevidence := orderedItems_map ordered_evidenceToValue result.evidence
  have hstages := orderedItems_map ordered_stageReportToValue result.stages
  have husage := ordered_usageToValue result.usage
  have hprovenance : Json.ordered (provenanceToValue result.provenance) = true := by
    obtain ⟨kind, eligible, digest, _ | nodeId, -, -⟩ := result.provenance <;>
    · simp only [provenanceToValue, Option.map_none, Option.map_some, Option.toList_none,
        Option.toList_some, List.nil_append, List.cons_append, List.append_nil, Json.ordered,
        Json.orderedMembers, List.head?_cons, List.head?_nil, Option.all_some, Option.all_none,
        Bool.and_true, Bool.true_and, Bool.and_eq_true, decide_eq_true_eq]
      decide
  simp only [resultToValue, scoreToValue, Json.ordered, Json.orderedMembers, hdiagnostics,
    hevidence, hstages, husage, hprovenance, List.head?_cons, List.head?_nil, Option.all_some,
    Option.all_none, Bool.and_true, Bool.true_and, Bool.and_eq_true, decide_eq_true_eq]
  decide

/-- The document of a result is never a request, so that it is a message exactly when it is a
result. -/
theorem openEvaluationMessage_resultToValue (result : EvaluationResult) :
    Schema.openEvaluationMessage (resultToValue result) =
      Schema.evaluationResult (resultToValue result) := by
  have hrequest : Schema.evaluationRequest (resultToValue result) = false := by
    simp [Schema.evaluationRequest, Schema.requestProperties, resultToValue, Schema.object,
      Schema.property]
  rw [Schema.openEvaluationMessage, hrequest, Bool.false_xor]

/-! ### Bytes -/

section Codec

variable [Wire]

/-- **Round trip of results.** What was encoded decodes to the same result. -/
theorem inverts_result (hl : LosslessResults) :
    Inverts encodeEvaluationResult decodeEvaluationResultDomain := by
  intro result payload h
  obtain ⟨⟨⟩, hsemantics, h⟩ := bind_eq_ok.mp h
  obtain ⟨hvalid, ⟨typed, hvalue, hvec⟩, hsize⟩ := encodeWire_eq_ok.mp h
  obtain ⟨doc, text, hdoc, hback, htext, hslice, -⟩ :=
    hl _ (openEvaluationMessage_resultToValue result ▸ hvalid) (ordered_resultToValue result)
  obtain rfl : doc = typed := Option.some.inj (hdoc.symm.trans hvalue)
  obtain rfl : text = payload := Option.some.inj (htext.symm.trans hvec)
  have hdecode : decodeEvaluationResult text = .ok doc :=
    decodeEvaluationResult_eq_ok.mpr ⟨hsize, hslice, _, hback, hvalid, hsemantics⟩
  rw [decodeEvaluationResultDomain, hdecode, ok_bind, hback, orRefuse_some, ok_bind]
  exact resultFromValue_toValue result

/-- **Round trip of requests.** What was encoded decodes to the same request. -/
theorem inverts_request (hl : LosslessRequests) :
    Inverts encodeEvaluationRequest decodeEvaluationRequest :=
  fun _ _ => decode_of_encode hl

/-- Requests that decode are encoded. -/
theorem reencodes_request (hl : LosslessRequests) :
    Reencodes encodeEvaluationRequest decodeEvaluationRequest :=
  fun _ _ h => exists_encode hl (mediaTypeAccepted_of_decode h)

/-- **The result codec.** Every encoded result decodes to itself, so that results share their
bytes only when they are the same. -/
theorem result_codec (hl : LosslessResults) :
    (∀ result payload, encodeEvaluationResult result = .ok payload →
      decodeEvaluationResultDomain payload = .ok result) ∧
    ∀ result result' payload payload', encodeEvaluationResult result = .ok payload →
      encodeEvaluationResult result' = .ok payload' → (payload = payload' ↔ result = result') :=
  ⟨inverts_result hl, fun _ _ _ _ h h' => (inverts_result hl).eq_iff h h'⟩

/-- **The request codec.** Every encoded request decodes to itself, every request that decodes
is encoded as bytes that decode to it again, and requests share their bytes only when they are
the same. -/
theorem request_codec (hl : LosslessRequests) :
    (∀ request payload, encodeEvaluationRequest request = .ok payload →
      decodeEvaluationRequest payload = .ok request) ∧
    (∀ input request, decodeEvaluationRequest input = .ok request →
      ∃ payload, encodeEvaluationRequest request = .ok payload ∧
        decodeEvaluationRequest payload = .ok request) ∧
    ∀ request request' payload payload', encodeEvaluationRequest request = .ok payload →
      encodeEvaluationRequest request' = .ok payload' →
        (payload = payload' ↔ request = request') :=
  ⟨inverts_request hl, fun _ _ => (reencodes_request hl).exists_decode (inverts_request hl),
    fun _ _ _ _ h h' => (inverts_request hl).eq_iff h h'⟩

end Codec

section Json

attribute [local instance] jsonWire

/-- Through plain JSON, the fixture's rejection, with its diagnostic, its evidence and its node,
decodes to itself, and its bytes are not those of the cancellation. -/
theorem result_codec_fixture :
    ∃ payload cancelled, encodeEvaluationResult fixtureRejection = .ok payload ∧
      decodeEvaluationResultDomain payload = .ok fixtureRejection ∧
      encodeEvaluationResult fixtureCancellation = .ok cancelled ∧ payload ≠ cancelled := by
  have hl : LosslessResults := WireType.json_lossless _
  obtain ⟨payload, hpayload⟩ := exists_encode_rejection
  obtain ⟨cancelled, hcancelled, -⟩ := exists_encode_cancellation
  obtain ⟨hdecodes, hinjective⟩ := result_codec hl
  refine ⟨payload, cancelled, hpayload, hdecodes _ payload hpayload, hcancelled, fun hsame => ?_⟩
  have hresults := (hinjective _ _ _ _ hpayload hcancelled).mp hsame
  exact absurd (congrArg (fun result => result.status) hresults) (by decide)

/-- Through plain JSON, the fixture's request, with its source and its capabilities, decodes to
itself and is encoded again, and its bytes are not those of the next attempt's request. -/
theorem request_codec_fixture :
    ∃ payload next, encodeEvaluationRequest fixtureRequest = .ok payload ∧
      decodeEvaluationRequest payload = .ok fixtureRequest ∧
      (∃ again, encodeEvaluationRequest fixtureRequest = .ok again ∧
        decodeEvaluationRequest again = .ok fixtureRequest) ∧
      encodeEvaluationRequest fixtureNext = .ok next ∧ payload ≠ next := by
  have hl : LosslessRequests := WireType.json_lossless _
  obtain ⟨payload, hpayload⟩ : ∃ payload, encodeEvaluationRequest fixtureRequest = .ok payload :=
    exists_encode hl fixtureParts_mediaType
  obtain ⟨next, hnext⟩ : ∃ next, encodeEvaluationRequest fixtureNext = .ok next :=
    exists_encode hl fixtureParts_mediaType
  obtain ⟨hdecodes, hreencodes, hinjective⟩ := request_codec hl
  have hdecode := hdecodes _ payload hpayload
  refine ⟨payload, next, hpayload, hdecode, hreencodes _ _ hdecode, hnext, fun hsame => ?_⟩
  have hrequests := (hinjective _ _ _ _ hpayload hnext).mp hsame
  exact absurd (congrArg (fun request => request.attemptNumber) hrequests) (by decide)

end Json
end OpenOJ
