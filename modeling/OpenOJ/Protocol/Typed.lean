import OpenOJ.Foundation.JsonShape
import OpenOJ.Protocol.RoundTrip
import OpenOJ.Protocol.Tokens

/-!
# Which documents the decoders let through

A decoder reads a text into the generated wire type and checks the schema on what the type writes,
not on the document of the text. The wire type is a parameter; what is assumed of it is that it
reads documents of its shape (`WireType.OfShape`): unknown and repeated members are refused, and an
optional member that is absent or `null` is not written.

The first section compares schemas with shapes. A schema *fits* a shape (`Schema.Fits`) when what it
accepts is of the shape, and a document of the shape is accepted when what was read from it is. The
combinators of the one fit the combinators of the other: scalars (`string_fits`, `integer_fits`,
`enumeration_fits`), lists (`array_fits`, `uniqueItems_fits`) and structures field by field
(`object_fits`). So the definitions of the schema fit the shapes of the generated types, which the
second section lists under their names.

* `oneOf_iff`: of two kinds of message of which each has a member the other does not know, the type
  of the one reads no document of the other, so the root of the schema adds nothing;
* `decoded_valid_iff`: of the texts that decode, those of a valid message (`HoldsValid`) are exactly
  those in which every value is of the type the schema names there (`HoldsTyped`), `null` having
  none;
* `nullNodeCancellation_accepted`: a result with a node that is `null` decodes, although the schema
  does not accept it.
-/

namespace OpenOJ

open Outcome Json

/-! ### Schemas and shapes -/

namespace Schema

/-- What satisfies the schema is of the shape, and of documents of the shape the schema may be
checked on what was read from them. -/
structure Fits (schema : Schema) (shape : Shape) : Prop where
  typed : ∀ {v}, schema v = true → shape.typed v = true
  sound : ∀ {v w}, shape.reads v w → shape.typed v = true → schema w = true → schema v = true

theorem fits_scalar {schema : Schema} {p : Value → Bool} {hp : p .null = false}
    (h : ∀ v, schema v = true → p v = true) : schema.Fits (.scalar p hp) where
  typed := h _
  sound hreads htyped hw := hreads htyped ▸ hw

@[simp]
theorem string_fits (minLength maxLength : Nat) (pattern : Regex) :
    (string minLength maxLength pattern).Fits .string :=
  fits_scalar fun v h => by cases v <;> first | rfl | cases h

@[simp]
theorem contentDigest_fits : contentDigest.Fits .string :=
  fits_scalar fun v h => by cases v <;> first | rfl | cases h

@[simp]
theorem text_fits (maxLength : Nat) : (text maxLength).Fits .string :=
  fits_scalar fun v h => by cases v <;> first | rfl | cases h

@[simp]
theorem enumeration_fits (names : List String) : (enumeration names).Fits .string :=
  fits_scalar fun v h => by cases v <;> first | rfl | cases h

@[simp]
theorem integer_fits (minimum maximum : Int) : (integer minimum maximum).Fits .integer :=
  fits_scalar fun v h => by cases v <;> first | rfl | cases h

@[simp]
theorem boolean_fits : boolean.Fits .boolean :=
  fits_scalar fun v h => by cases v <;> first | rfl | cases h

/-- Lists are checked item by item. -/
theorem array_fits {minItems maxItems : Nat} {items : Schema} {shape : Shape}
    (h : items.Fits shape) : (array minItems maxItems items).Fits (.array shape) where
  typed {v} hv := by
    obtain ⟨vs, rfl, -, -, hitems⟩ := array_eq_true.mp hv
    exact List.all_eq_true.mpr fun v hv => h.typed (hitems v hv)
  sound {v w} hreads htyped hw := by
    cases v with
    | array vs =>
      obtain ⟨ws, rfl, hall⟩ := hreads vs rfl
      obtain ⟨_, ⟨⟩, hmin, hmax, hitems⟩ := array_eq_true.mp hw
      have hlength := hall.length_eq
      refine array_eq_true.mpr ⟨vs, rfl, by omega, by omega, fun v hv => ?_⟩
      obtain ⟨i, hi, rfl⟩ := List.mem_iff_getElem.mp hv
      have hitem := hall.get hi (hlength ▸ hi)
      exact h.sound hitem (List.all_eq_true.mp htyped _ hv) (hitems _ (List.getElem_mem _))
    | _ => cases htyped

/-- A list of strings is written as it was read, so that nothing is lost in comparing its items. -/
theorem uniqueItems_fits {minItems maxItems : Nat} {items : Schema} (h : items.Fits .string) :
    Fits (fun v => array minItems maxItems items v && uniqueItems v) (.array .string) where
  typed {v} hv := (array_fits h).typed (Bool.and_eq_true_iff.mp hv).1
  sound {v w} hreads htyped hw := by
    cases v with
    | array vs =>
      obtain ⟨ws, rfl, hall⟩ := hreads vs rfl
      have hsame : ws = vs := by
        refine List.ext_getElem hall.length_eq.symm fun i hw hv => ?_
        exact hall.get hv hw (List.all_eq_true.mp htyped _ (List.getElem_mem _))
      exact hsame ▸ hw
    | _ => cases htyped

/-- A property and the field it is read into. -/
structure Property.Fits (property : Property) (field : Shape.Field) : Prop where
  name : property.name = field.name
  required : property.required = field.required
  schema : property.schema.Fits field.shape

@[simp]
theorem property_fits {name : String} {schema : Schema} {shape : Shape} :
    (property name schema).Fits (.always name shape) ↔ schema.Fits shape :=
  ⟨fun h => h.schema, fun h => ⟨rfl, rfl, h⟩⟩

@[simp]
theorem optional_fits {name : String} {schema : Schema} {shape : Shape} :
    (optional name schema).Fits (.maybe name shape) ↔ schema.Fits shape :=
  ⟨fun h => h.schema, fun h => ⟨rfl, rfl, h⟩⟩

theorem object_eq_true {properties : List Property} {members : List (String × Value)} :
    object properties (.object members) = true ↔
      (∀ p ∈ properties, p.required = true → (get? members p.name).isSome) ∧
        ∀ m ∈ members, ∃ p ∈ properties, p.name = m.1 ∧ p.schema m.2 = true := by
  simp [object, get?, imp_iff_not_or]

/-- **Structures** are checked field by field. -/
theorem object_fits {properties : List Property} {fields : List Shape.Field}
    (hnames : (fields.map (·.name)).Nodup) (h : List.Forall₂ Property.Fits properties fields) :
    (object properties).Fits (.struct fields hnames) := by
  have hsame : properties.map (·.name) = fields.map (·.name) := by
    rw [← List.forall₂_eq_eq_eq, List.forall₂_map_left_iff, List.forall₂_map_right_iff]
    exact h.imp fun _ _ hfits => hfits.name
  have hproperties : (properties.map (·.name)).Nodup := hsame ▸ hnames
  have hleft {p : Property} (hp : p ∈ properties) : ∃ field ∈ fields, p.Fits field :=
    exists_of_forall₂ h hp
  have hright {field : Shape.Field} (hf : field ∈ fields) : ∃ p ∈ properties, p.Fits field :=
    exists_of_forall₂ h.flip hf
  constructor
  · intro v hv
    obtain ⟨members, rfl⟩ := exists_object hv
    refine List.all_eq_true.mpr fun field hfield => ?_
    obtain ⟨p, hp, hfits⟩ := hright hfield
    cases hget : get? members field.name with
    | none => rfl
    | some value =>
      rw [← hfits.name] at hget
      exact hfits.schema.typed (schema_of_get? hv hp hproperties hget)
  · intro v w hreads htyped hw
    cases v with
    | object members =>
      obtain ⟨hnodup, hknown, written, rfl, -, hall⟩ := hreads members rfl
      rw [object_eq_true]
      refine ⟨fun p hp hrequired => ?_, fun m hm => ?_⟩
      · -- a required field is only read when it is there
        obtain ⟨field, hfield, hfits⟩ := hleft hp
        have hread := hall field hfield
        rw [hfits.name]
        rw [hfits.required] at hrequired
        generalize get? members field.name = value at hread ⊢
        generalize get? written field.name = value' at hread
        cases hread with
        | present => rfl
        | absent h | null h => rw [hrequired] at h; cases h
      · obtain ⟨field, hfield, hname⟩ := List.mem_map.mp (hknown m hm)
        obtain ⟨p, hp, hfits⟩ := hright hfield
        have hget : get? members field.name = some m.2 := hname ▸ get?_of_mem hnodup hm
        have htyped' : field.shape.typed m.2 = true := by
          have hfieldTyped := List.all_eq_true.mp htyped field hfield
          rwa [hget] at hfieldTyped
        have hread := hall field hfield
        rw [hget] at hread
        generalize hvalue : m.2 = value at hread htyped'
        cases hread' : get? written field.name with
        | some value' =>
          rw [hread'] at hread
          cases hread with
          | present _ hread =>
            rw [← hfits.name] at hread'
            exact ⟨p, hp, hfits.name.trans hname, hfits.schema.sound hread htyped'
              (schema_of_get? hw hp hproperties hread')⟩
        | none =>
          -- a field is only left out for a null, which is of no type
          rw [hread'] at hread
          cases hread with
          | null => rw [field.shape.typed_null] at htyped'; cases htyped'
    | _ => cases htyped

end Schema

/-! ### The generated types -/

namespace WireShape

open Shape (array boolean integer string struct)
open Shape.Field (always maybe)

def artifactRef : Shape :=
  struct [always "artifact_id" string, always "digest" string, always "media_type" string,
    always "size_bytes" integer, always "sensitivity" string] (by decide)

def problemVersionRef : Shape :=
  struct [always "problem_id" string, always "problem_version_id" string, always "digest" string]
    (by decide)

def runtimeRef : Shape := struct [always "runtime_id" string, always "digest" string] (by decide)

def submissionRef : Shape :=
  struct [always "submission_id" string, always "source" artifactRef] (by decide)

def evaluationPlan : Shape :=
  struct [always "profile" string, always "stages" (array string)] (by decide)

def resourcePolicy : Shape :=
  struct [always "cpu_time_ms" integer, always "wall_time_ms" integer,
    always "memory_bytes" integer, always "output_bytes" integer, always "process_limit" integer,
    always "network" string] (by decide)

/-- The fields of a request. -/
def requestFields : List Shape.Field :=
  [always "message_type" string, always "schema_version" string, always "request_id" string,
    always "idempotency_key" string, always "evaluation_id" string, always "attempt_id" string,
    always "attempt_number" integer, always "problem_version" problemVersionRef,
    always "submission" submissionRef, always "runtime" runtimeRef, always "plan" evaluationPlan,
    always "policy" resourcePolicy, always "required_capabilities" (array string)]

def evaluationRequest : Shape := struct requestFields (by decide)

def resourceUsage : Shape :=
  struct [always "cpu_time_ms" integer, always "wall_time_ms" integer,
    always "memory_peak_bytes" integer, always "output_bytes" integer] (by decide)

def diagnostic : Shape :=
  struct [always "code" string, always "message" string, always "truncated" boolean] (by decide)

def evidenceRef : Shape :=
  struct [always "evidence_id" string, always "kind" string, maybe "artifact" artifactRef]
    (by decide)

def stageReport : Shape :=
  struct [always "stage" string, always "status" string, always "usage" resourceUsage,
    always "diagnostics" (array diagnostic), always "evidence" (array evidenceRef)] (by decide)

def score : Shape := struct [always "earned" integer, always "possible" integer] (by decide)

def executionProvenance : Shape :=
  struct [always "executor_kind" string, always "production_eligible" boolean,
    always "runtime_digest" string, maybe "node_id" string] (by decide)

/-- The fields of a result. -/
def resultFields : List Shape.Field :=
  [always "message_type" string, always "schema_version" string, always "request_id" string,
    always "evaluation_id" string, always "attempt_id" string, always "problem_version_id" string,
    always "submission_id" string, always "runtime_id" string, always "status" string,
    always "verdict" string, always "score" score, always "stages" (array stageReport),
    always "usage" resourceUsage, always "diagnostics" (array diagnostic),
    always "evidence" (array evidenceRef), always "provenance" executionProvenance]

def evaluationResult : Shape := struct resultFields (by decide)

end WireShape

private theorem artifactRef_fits : Schema.artifactRef.Fits WireShape.artifactRef := by
  refine Schema.object_fits _ ?_
  simp [Schema.opaqueId, Schema.mediaType, Schema.artifactSensitivity]

private theorem evaluationPlan_fits : Schema.evaluationPlan.Fits WireShape.evaluationPlan := by
  refine Schema.object_fits _ ?_
  simp [Schema.uniqueItems_fits, Schema.stageKind]

private theorem references_fit : Schema.problemVersionRef.Fits WireShape.problemVersionRef ∧
    Schema.runtimeRef.Fits WireShape.runtimeRef ∧
    Schema.submissionRef.Fits WireShape.submissionRef := by
  refine ⟨Schema.object_fits _ ?_, Schema.object_fits _ ?_, Schema.object_fits _ ?_⟩
  all_goals simp [Schema.opaqueId, artifactRef_fits]

private theorem resourcePolicy_fits : Schema.resourcePolicy.Fits WireShape.resourcePolicy := by
  refine Schema.object_fits _ ?_
  simp [Schema.networkPolicy]

/-- Requests are read field by field. -/
theorem evaluationRequest_fits : Schema.evaluationRequest.Fits WireShape.evaluationRequest := by
  refine Schema.object_fits _ ?_
  simp [Schema.requestProperties, WireShape.requestFields, Schema.opaqueId, Schema.idempotencyKey,
    Schema.schemaVersion, Schema.capability, Schema.uniqueItems_fits, references_fit,
    evaluationPlan_fits, resourcePolicy_fits]

private theorem resourceUsage_fits : Schema.resourceUsage.Fits WireShape.resourceUsage := by
  refine Schema.object_fits _ ?_
  simp

private theorem diagnostic_fits : Schema.diagnostic.Fits WireShape.diagnostic := by
  refine Schema.object_fits _ ?_
  simp

private theorem evidenceRef_fits : Schema.evidenceRef.Fits WireShape.evidenceRef := by
  refine Schema.object_fits _ ?_
  simp [Schema.opaqueId, artifactRef_fits]

private theorem stageReport_fits : Schema.stageReport.Fits WireShape.stageReport := by
  refine Schema.object_fits _ ?_
  simp [Schema.stageKind, Schema.stageStatus, Schema.array_fits, resourceUsage_fits,
    diagnostic_fits, evidenceRef_fits]

private theorem score_fits : Schema.score.Fits WireShape.score := by
  refine Schema.object_fits _ ?_
  simp

private theorem executionProvenance_fits :
    Schema.executionProvenance.Fits WireShape.executionProvenance := by
  refine Schema.object_fits _ ?_
  simp [Schema.opaqueId]

/-- Results are read field by field. -/
theorem evaluationResult_fits : Schema.evaluationResult.Fits WireShape.evaluationResult := by
  refine Schema.object_fits _ ?_
  simp [Schema.resultProperties, WireShape.resultFields, Schema.opaqueId, Schema.schemaVersion,
    Schema.evaluationStatus, Schema.verdict, Schema.array_fits, resourceUsage_fits,
    diagnostic_fits, evidenceRef_fits, stageReport_fits, score_fits, executionProvenance_fits]

/-! ### Wire types -/

section Library

variable [JsonText]

/-- What is assumed of a generated wire type: what it reads is a document of its shape, and that is
what it writes of it. -/
def WireType.OfShape (wire : WireType) (shape : Shape) : Prop :=
  ∀ body doc value, wire.fromSlice body = some doc → wire.toValue doc = some value →
    ∃ v, JsonText.fromSlice body = some v ∧ shape.reads v value

/-- The strict wire type of a shape. -/
def WireType.ofShape (shape : Shape) : WireType where
  Doc := Value
  fromSlice body := (JsonText.fromSlice body).bind shape.read
  toValue := some
  fromValue := some
  toVec v := some (toBytes v)

theorem WireType.ofShape_ofShape (shape : Shape) : (WireType.ofShape shape).OfShape shape := by
  rintro body doc _ hslice ⟨⟩
  obtain ⟨v, hv, hread⟩ := Option.bind_eq_some_iff.mp hslice
  exact ⟨v, hv, shape.read_reads hread⟩

end Library

/-- A document without a required member satisfies no schema. -/
private theorem object_eq_false {properties : List Schema.Property} {p : Schema.Property}
    {fields : List Shape.Field} {members : List (String × Value)} (hp : p ∈ properties)
    (hrequired : p.required = true) (hname : p.name ∉ fields.map (·.name))
    (h : Shape.Known fields members) : Schema.object properties (.object members) = false := by
  rw [← Bool.not_eq_true, Schema.object_eq_true]
  rintro ⟨hall, -⟩
  obtain ⟨v, hv⟩ := Option.isSome_iff_exists.mp (hall p hp hrequired)
  exact hname (h _ (mem_of_get? hv))

/-- **One kind of message.** Of two kinds of which each has a member the other does not know, the
type of the one reads no document of the other. -/
theorem oneOf_iff {schema other : Schema} {fields : List Shape.Field} {hnames}
    (hfits : schema.Fits (.struct fields hnames))
    (hother : ∀ members, Shape.Known fields members → other (.object members) = false)
    (hobject : ∀ v, other v = true → ∃ members, v = .object members) {v w : Value}
    (hreads : (Shape.struct fields hnames).reads v w) (hw : (schema w ^^ other w) = true) :
    (schema v ^^ other v) = true ↔ (Shape.struct fields hnames).typed v = true := by
  have hnone (members : List (String × Value)) (hv : v = .object members) :
      other v = false := by
    rw [hv]
    exact hother members (hreads members hv).2.1
  constructor
  · intro hv
    by_cases hotherv : other v = true
    · obtain ⟨members, hmembers⟩ := hobject v hotherv
      rw [hnone members hmembers] at hotherv
      cases hotherv
    · rw [Bool.not_eq_true] at hotherv
      rw [hotherv, Bool.xor_false] at hv
      exact hfits.typed hv
  · intro htyped
    cases v with
    | object members =>
      obtain ⟨-, -, written, rfl, hknown, -⟩ := hreads members rfl
      rw [hother written hknown, Bool.xor_false] at hw
      rw [hnone members rfl, Bool.xor_false]
      exact hfits.sound hreads htyped hw
    | _ => cases htyped

/-! ### Decoders -/

private theorem evaluationResult_known {members : List (String × Value)}
    (h : Shape.Known WireShape.requestFields members) :
    Schema.evaluationResult (.object members) = false :=
  object_eq_false (p := Schema.property "status" Schema.evaluationStatus)
    (by simp [Schema.resultProperties]) rfl (by decide) h

private theorem evaluationRequest_known {members : List (String × Value)}
    (h : Shape.Known WireShape.resultFields members) :
    Schema.evaluationRequest (.object members) = false :=
  object_eq_false (p := Schema.property "plan" Schema.evaluationPlan)
    (by simp [Schema.requestProperties]) rfl (by decide) h

section Decoders

variable [Wire] [JsonText]

/-- The document of the text is a valid message. -/
def HoldsValid (body : List UInt8) : Prop :=
  ∃ v, JsonText.fromSlice body = some v ∧ Schema.openEvaluationMessage v = true

/-- Every value in the document of the text has the type that the schema names there. -/
def HoldsTyped (shape : Shape) (body : List UInt8) : Prop :=
  ∃ v, JsonText.fromSlice body = some v ∧ shape.typed v = true

/-- **What the decoders let through.** Of the texts that decode, those of a valid message are
exactly those in which every value is of the type the schema names for it. -/
theorem decoded_valid_iff (hrequest : Wire.request.OfShape WireShape.evaluationRequest)
    (hresult : Wire.result.OfShape WireShape.evaluationResult) (body : List UInt8) :
    ((∃ request, decodeEvaluationRequest body = .ok request) →
      (HoldsValid body ↔ HoldsTyped WireShape.evaluationRequest body)) ∧
    ((∃ result, decodeEvaluationResult body = .ok result) →
      (HoldsValid body ↔ HoldsTyped WireShape.evaluationResult body)) := by
  constructor
  · rintro ⟨request, hdecode⟩
    obtain ⟨value, hvalue, -⟩ := bind_eq_ok.mp hdecode
    obtain ⟨-, ⟨typed, hslice, hwrite⟩, hvalid⟩ := decodeWire_eq_ok.mp hvalue
    obtain ⟨v, hv, hreads⟩ := hrequest body typed value hslice hwrite
    have hiff := oneOf_iff evaluationRequest_fits (fun _ => evaluationResult_known)
      (fun _ => Schema.exists_object) hreads hvalid
    simp only [HoldsValid, HoldsTyped, hv, Option.some.injEq, exists_eq_left']
    exact hiff
  · rintro ⟨result, hdecode⟩
    obtain ⟨-, hslice, value, hwrite, hvalid, -⟩ := decodeEvaluationResult_eq_ok.mp hdecode
    obtain ⟨v, hv, hreads⟩ := hresult body result value hslice hwrite
    rw [Schema.openEvaluationMessage, Bool.xor_comm] at hvalid
    have hiff := oneOf_iff evaluationResult_fits (fun _ => evaluationRequest_known)
      (fun _ => Schema.exists_object) hreads hvalid
    simp only [HoldsValid, HoldsTyped, hv, Option.some.injEq, exists_eq_left']
    rw [Schema.openEvaluationMessage, Bool.xor_comm]
    exact hiff

end Decoders

/-! ### A member that is null -/

/-- Wire types that read documents of their shapes strictly, from compact texts. -/
@[reducible]
def shapedWire : Wire where
  request := @WireType.ofShape compactText WireShape.evaluationRequest
  result := @WireType.ofShape compactText WireShape.evaluationResult

/-- A document with a null under a name of its provenance. -/
def withNullNode : Value → Value
  | .object members =>
    .object (members.map fun m => if m.1 = "provenance" then (m.1, insertNull m.2) else m)
  | v => v
where
  insertNull : Value → Value
    | .object members => .object (insert members "node_id" .null)
    | v => v

/-- The fixture's cancellation, by no node. -/
def nullNodeCancellation : Value := withNullNode (resultToValue fixtureCancellation)

section Json

attribute [local instance] compactText shapedWire

private theorem fromSlice_toBytes (v : Value) : JsonText.fromSlice (toBytes v) = some v :=
  Option.filter_eq_some_iff.mpr ⟨ofBytes_toBytes v, decide_eq_true rfl⟩

/-- A document decodes when what the strict reader makes of it is consistent. -/
private theorem exists_decodeResult {v : Value}
    (hread : (WireShape.evaluationResult.read v).any (fun w => Schema.openEvaluationMessage w &&
      decide (validateResultSemantics w = .ok ())) = true)
    (hsize : sizeBound v ≤ maxEvaluationResultBytes) :
    ∃ result, decodeEvaluationResult (toBytes v) = .ok result := by
  obtain ⟨w, hw, hvalid⟩ := (Option.any_eq_true _ _).mp hread
  rw [Bool.and_eq_true, decide_eq_true_eq] at hvalid
  refine ⟨w, decodeEvaluationResult_eq_ok.mpr ⟨Nat.le_trans (length_toBytes_le v) hsize, ?_,
    w, rfl, hvalid.1, hvalid.2⟩⟩
  exact (congrArg (Option.bind · _) (fromSlice_toBytes v)).trans hw

/-- A document decodes when what the strict reader makes of it is a request. -/
private theorem exists_decodeRequest {v : Value}
    (hread : (WireShape.evaluationRequest.read v).any (fun w => Schema.openEvaluationMessage w &&
      (requestFromValue w).isOk) = true)
    (hsize : (toBytes v).length ≤ maxEvaluationRequestBytes) :
    ∃ request, decodeEvaluationRequest (toBytes v) = .ok request := by
  obtain ⟨w, hw, hvalid⟩ := (Option.any_eq_true _ _).mp hread
  rw [Bool.and_eq_true] at hvalid
  rcases hrequest : requestFromValue w with error | request
  · rw [hrequest] at hvalid
    cases hvalid.2
  · refine ⟨request, bind_eq_ok.mpr ⟨w, decodeWire_eq_ok.mpr ⟨hsize, ⟨w, ?_, rfl⟩, hvalid.1⟩,
      hrequest⟩⟩
    exact (congrArg (Option.bind · _) (fromSlice_toBytes v)).trans hw

private theorem read_cancellation :
    (WireShape.evaluationResult.read (resultToValue fixtureCancellation)).any (fun w =>
      Schema.openEvaluationMessage w && decide (validateResultSemantics w = .ok ())) = true := by
  decide +kernel

/-- The strict reader drops the null. -/
private theorem read_nullNodeCancellation : WireShape.evaluationResult.read nullNodeCancellation =
    WireShape.evaluationResult.read (resultToValue fixtureCancellation) := rfl

/-- What the strict reader makes of the fixture's request is a request. -/
private theorem read_request :
    (WireShape.evaluationRequest.read (requestToValue fixtureRequest)).any (fun w =>
      Schema.openEvaluationMessage w && (requestFromValue w).isOk) = true := by
  decide +kernel

/-- The fixture's request and its cancellation decode, their values are of their types, and so they
are valid. -/
theorem decoded_valid_iff_fixture :
    ((∃ request, decodeEvaluationRequest (toBytes (requestToValue fixtureRequest)) = .ok request) ∧
      HoldsTyped WireShape.evaluationRequest (toBytes (requestToValue fixtureRequest)) ∧
      HoldsValid (toBytes (requestToValue fixtureRequest))) ∧
    (∃ result, decodeEvaluationResult (toBytes (resultToValue fixtureCancellation)) = .ok result) ∧
      HoldsTyped WireShape.evaluationResult (toBytes (resultToValue fixtureCancellation)) ∧
      HoldsValid (toBytes (resultToValue fixtureCancellation)) := by
  have hdecode := exists_decodeResult read_cancellation (by decide +kernel)
  have htyped : HoldsTyped WireShape.evaluationResult
      (toBytes (resultToValue fixtureCancellation)) :=
    ⟨_, fromSlice_toBytes _, by decide +kernel⟩
  have hrequest := exists_decodeRequest read_request (length_requestToValue_le fixtureRequest)
  have hrequestTyped : HoldsTyped WireShape.evaluationRequest
      (toBytes (requestToValue fixtureRequest)) := ⟨_, fromSlice_toBytes _, by decide +kernel⟩
  exact ⟨⟨hrequest, hrequestTyped, ((decoded_valid_iff (WireType.ofShape_ofShape _)
      (WireType.ofShape_ofShape _) _).1 hrequest).mpr hrequestTyped⟩, hdecode, htyped,
    ((decoded_valid_iff (WireType.ofShape_ofShape _) (WireType.ofShape_ofShape _) _).2
      hdecode).mpr htyped⟩

/-- With the null it decodes just as well, and is not valid. -/
theorem nullNodeCancellation_accepted :
    (∃ result, decodeEvaluationResult (toBytes nullNodeCancellation) = .ok result) ∧
      ¬HoldsValid (toBytes nullNodeCancellation) := by
  refine ⟨exists_decodeResult (read_nullNodeCancellation ▸ read_cancellation)
    (by decide +kernel), ?_⟩
  rintro ⟨v, hv, hvalid⟩
  rw [fromSlice_toBytes, Option.some.injEq] at hv
  have hinvalid : Schema.openEvaluationMessage nullNodeCancellation = false := by decide +kernel
  rw [hv, hvalid] at hinvalid
  cases hinvalid

end Json
end OpenOJ
