import OpenOJ.Foundation.Json
import OpenOJ.Foundation.Regex
import OpenOJ.Domain.Result

/-!
# The canonical message schema

The keywords of the schema the repository uses, as combinators on documents, and its definitions
written with them. A schema is a decidable predicate of documents (`Schema`), so the definitions can
be evaluated on a document.

* `property` and `optional` are the members of an object, and `object` accepts exactly the named
  ones, as `additionalProperties: false` does;
* `array` and `uniqueItems` are lists with bounds on their length, `string` and `text` are strings
  with a pattern or with bounds on their length, counted in characters;
* `enumeration`, `integer` and `boolean` are scalars with their values, bounds or none.

The patterns (`opaquePattern`, `digestPattern`, `mediaTypePattern`, `tokenPattern`,
`diagnosticCodePattern`) are regular expressions over bytes: they are ASCII, so they are matched
against the bytes of a string.

The definitions follow the schema's own, under its names: those both messages share (`opaqueId`,
`contentDigest`, `artifactRef` and so on), those of requests (`evaluationRequest`) and those of
results (`evaluationResult`). `openEvaluationMessage` is the schema's root: exactly one of a request
and a result.
-/

namespace OpenOJ

open Text

/-- A schema decides documents. -/
abbrev Schema := Json.Value → Bool

namespace Schema

/-! ### Keywords -/

/-- A property of an object schema. -/
structure Property where
  name : String
  required : Bool
  schema : Schema

def property (name : String) (schema : Schema) : Property := ⟨name, true, schema⟩

def optional (name : String) (schema : Schema) : Property := ⟨name, false, schema⟩

/-- `"type": "object"` with `required`, `properties` and `additionalProperties: false`. -/
def object (properties : List Property) : Schema
  | .object members =>
    (properties.all fun p => !p.required || members.any fun m => m.1 == p.name) &&
      members.all fun m => properties.any fun p => p.name == m.1 && p.schema m.2
  | _ => false

/-- `"type": "array"` with `minItems`, `maxItems` and `items`. -/
def array (minItems maxItems : Nat) (items : Schema) : Schema
  | .array vs => decide (minItems ≤ vs.length) && decide (vs.length ≤ maxItems) && vs.all items
  | _ => false

/-- `uniqueItems`, on the strings of an array. -/
def uniqueItems : Schema
  | .array vs => decide (vs.filterMap Json.Value.asStr?).Nodup
  | _ => true

/-- `"type": "string"` with `minLength`, `maxLength` and `pattern`; lengths count
characters. -/
def string (minLength maxLength : Nat) (pattern : Regex) : Schema
  | .string s =>
    decide (minLength ≤ s.length) && decide (s.length ≤ maxLength) && pattern.accepts (bytes s)
  | _ => false

/-- `"type": "string"` with `maxLength` alone. -/
def text (maxLength : Nat) : Schema
  | .string s => decide (s.length ≤ maxLength)
  | _ => false

/-- `"type": "string"` with `enum`. -/
def enumeration (names : List String) : Schema
  | .string s => names.contains s
  | _ => false

/-- `"type": "integer"` with `minimum` and `maximum`. -/
def integer (minimum maximum : Int) : Schema
  | .number n => decide (minimum ≤ n) && decide (n ≤ maximum)
  | _ => false

def boolean : Schema
  | .bool _ => true
  | _ => false

/-! ### Patterns -/

/-- `^[A-Za-z0-9][A-Za-z0-9._:-]*$`. -/
def opaquePattern : Regex :=
  (Regex.byte isAsciiAlphanumeric).seq
    (Regex.byte fun b => isAsciiAlphanumeric b || isSeparator b).star

/-- `^sha256:[0-9a-f]{64}$`. -/
def digestPattern : Regex :=
  (Regex.literal sha256Tag).seq (Regex.exactly 64 (Regex.byte isLowerHex))

/-- `[A-Za-z0-9][A-Za-z0-9!#$&^_.+-]{0,63}`. -/
def mediaTokenPattern : Regex :=
  (Regex.byte isAsciiAlphanumeric).seq (Regex.upTo 63 (Regex.byte isMediaTypeByte))

/-- One media token, a slash, another one. -/
def mediaTypePattern : Regex :=
  mediaTokenPattern.seq ((Regex.byte (· == 47)).seq mediaTokenPattern)

def isLowerAlphanumeric (b : UInt8) : Bool := isAsciiLowercase b || isAsciiDigit b

/-- `^[a-z][a-z0-9]*(?:[._:-][a-z0-9]+)*$`. -/
def tokenPattern : Regex :=
  (Regex.byte isAsciiLowercase).seq
    ((Regex.byte isLowerAlphanumeric).star.seq
      ((Regex.byte isSeparator).seq (Regex.byte isLowerAlphanumeric).plus).star)

/-- `^[A-Z][A-Z0-9_]*$`. -/
def diagnosticCodePattern : Regex :=
  (Regex.byte isAsciiUppercase).seq
    (Regex.byte fun b => isAsciiUppercase b || isAsciiDigit b || b == 95).star

/-! ### Definitions shared by both messages -/

def opaqueId : Schema := string 1 64 opaquePattern

def idempotencyKey : Schema := string 1 128 opaquePattern

def contentDigest : Schema
  | .string s => digestPattern.accepts (bytes s)
  | _ => false

def mediaType : Schema := string 3 129 mediaTypePattern

def artifactSensitivity : Schema := enumeration ["public", "private", "hidden"]

def artifactRef : Schema :=
  object [property "artifact_id" opaqueId, property "digest" contentDigest,
    property "media_type" mediaType, property "size_bytes" (integer 0 1099511627776),
    property "sensitivity" artifactSensitivity]

def stageKind : Schema := enumeration ["prepare", "build", "run", "check", "aggregate"]

def schemaVersion : Schema := enumeration ["openoj.evaluation/v0alpha1"]

/-! ### Requests -/

def problemVersionRef : Schema :=
  object [property "problem_id" opaqueId, property "problem_version_id" opaqueId,
    property "digest" contentDigest]

def runtimeRef : Schema :=
  object [property "runtime_id" opaqueId, property "digest" contentDigest]

def submissionRef : Schema :=
  object [property "submission_id" opaqueId, property "source" artifactRef]

def evaluationPlan : Schema :=
  object [property "profile" (enumeration ["algorithm_batch"]),
    property "stages" fun v => array 1 32 stageKind v && uniqueItems v]

def networkPolicy : Schema := enumeration ["denied"]

def resourcePolicy : Schema :=
  object [property "cpu_time_ms" (integer 1 86400000),
    property "wall_time_ms" (integer 1 86400000),
    property "memory_bytes" (integer 1 1099511627776),
    property "output_bytes" (integer 1 1073741824), property "process_limit" (integer 1 65535),
    property "network" networkPolicy]

def capability : Schema := string 1 64 tokenPattern

/-- The properties of a request. -/
def requestProperties : List Property :=
  [property "message_type" (enumeration ["evaluation_request"]),
    property "schema_version" schemaVersion, property "request_id" opaqueId,
    property "idempotency_key" idempotencyKey, property "evaluation_id" opaqueId,
    property "attempt_id" opaqueId, property "attempt_number" (integer 1 4294967295),
    property "problem_version" problemVersionRef, property "submission" submissionRef,
    property "runtime" runtimeRef, property "plan" evaluationPlan,
    property "policy" resourcePolicy,
    property "required_capabilities" fun v => array 0 32 capability v && uniqueItems v]

def evaluationRequest : Schema := object requestProperties

/-! ### Results -/

def resourceUsage : Schema :=
  object [property "cpu_time_ms" (integer 0 86400000),
    property "wall_time_ms" (integer 0 86400000),
    property "memory_peak_bytes" (integer 0 1099511627776),
    property "output_bytes" (integer 0 1073741824)]

def diagnostic : Schema :=
  object [property "code" (string 1 64 diagnosticCodePattern), property "message" (text 2048),
    property "truncated" boolean]

def evidenceRef : Schema :=
  object [property "evidence_id" opaqueId, property "kind" (string 1 64 tokenPattern),
    optional "artifact" artifactRef]

def stageStatus : Schema := enumeration ["succeeded", "failed", "cancelled", "skipped"]

def stageReport : Schema :=
  object [property "stage" stageKind, property "status" stageStatus,
    property "usage" resourceUsage, property "diagnostics" (array 0 64 diagnostic),
    property "evidence" (array 0 256 evidenceRef)]

def evaluationStatus : Schema := enumeration ["completed", "failed", "cancelled"]

def verdict : Schema :=
  enumeration ["accepted", "wrong_answer", "compile_error", "runtime_error",
    "time_limit_exceeded", "memory_limit_exceeded", "output_limit_exceeded", "system_error",
    "cancelled"]

def score : Schema :=
  object [property "earned" (integer 0 4294967295), property "possible" (integer 1 4294967295)]

def executionProvenance : Schema :=
  object [property "executor_kind" (enumeration ["development_mock", "firecracker"]),
    property "production_eligible" boolean, property "runtime_digest" contentDigest,
    optional "node_id" opaqueId]

/-- The properties of a result. -/
def resultProperties : List Property :=
  [property "message_type" (enumeration ["evaluation_result"]),
    property "schema_version" schemaVersion, property "request_id" opaqueId,
    property "evaluation_id" opaqueId, property "attempt_id" opaqueId,
    property "problem_version_id" opaqueId, property "submission_id" opaqueId,
    property "runtime_id" opaqueId, property "status" evaluationStatus,
    property "verdict" verdict, property "score" score,
    property "stages" (array 1 32 stageReport), property "usage" resourceUsage,
    property "diagnostics" (array 0 64 diagnostic), property "evidence" (array 0 256 evidenceRef),
    property "provenance" executionProvenance]

def evaluationResult : Schema := object resultProperties

/-! ### The root -/

/-- `oneOf` a request and a result. -/
def openEvaluationMessage : Schema := fun v => evaluationRequest v ^^ evaluationResult v

end Schema
end OpenOJ
