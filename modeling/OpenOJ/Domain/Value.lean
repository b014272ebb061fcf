import OpenOJ.Foundation.Outcome
import OpenOJ.Foundation.Text

/-!
# Identifiers and tokens

The validated strings of the domain. Each is a structure whose value passes its own validator, so a
malformed identifier cannot be built; `parse` is the only way in from raw text, and it gives back
what it was given (`OpaqueId.parse_eq_ok`, `Capability.value_of_parse` and so on). Errors name the
field they are about (`DomainError`).

Three families make up most of the module:

* opaque identifiers, which begin with a letter or digit and go on with letters, digits and
  separators, up to a length (`validateOpaque`). Their types differ only in the field their errors
  name, so they are one family `OpaqueId field`; the idempotency key has a greater length of its own
  (`IdempotencyKey`);
* content digests: `sha256:` and 64 lower-case hexadecimal digits (`validateContentDigest`);
* lower-case tokens: segments of letters and digits with one separator between two of them, begun by
  a letter (`scanLowerToken`). A `Capability` and an `EvidenceKind` are such tokens.

A `DiagnosticCode` is of none of them: upper-case letters, digits and underscores, begun by a
letter.

Validators work on bytes, as the code does, and what they accept is ASCII.
-/

namespace OpenOJ

open Outcome Text

/-- Why a domain constructor refuses its input. -/
inductive DomainError where
  | empty (field : String)
  | tooLong (field : String) (maximum actual : Nat)
  | invalidFormat (field reason : String)
  | outOfRange (field : String) (minimum maximum actual : Nat)
  | tooManyItems (field : String) (maximum actual : Nat)
  | duplicateItem (field : String)
  | invalidPlan
  | invalidScore
  | invalidResult (reason : String)
  | invalidProvenance (reason : String)
  | invalidTransition (entity source target : String)
  deriving DecidableEq, Repr

def maxOpaqueIdLength : Nat := 64

def maxIdempotencyKeyLength : Nat := 128

def maxCapabilityLength : Nat := 64

def maxDiagnosticCodeLength : Nat := 64

def maxEvidenceKindLength : Nat := 64

/-! ### Byte classes -/

def isAsciiDigit (b : UInt8) : Bool := 48 ≤ b && b ≤ 57

def isAsciiLowercase (b : UInt8) : Bool := 97 ≤ b && b ≤ 122

def isAsciiUppercase (b : UInt8) : Bool := 65 ≤ b && b ≤ 90

def isAsciiAlphanumeric (b : UInt8) : Bool :=
  isAsciiDigit b || isAsciiLowercase b || isAsciiUppercase b

/-- Dot, underscore, colon or hyphen. -/
def isSeparator (b : UInt8) : Bool := b == 46 || b == 95 || b == 58 || b == 45

/-! ### Opaque identifiers -/

/-- `validate_opaque`. -/
def validateOpaque (value field : String) (maximum : Nat) : Except DomainError Unit :=
  match bytes value with
  | [] => .error (.empty field)
  | first :: rest =>
    if maximum < (bytes value).length then
      .error (.tooLong field maximum (bytes value).length)
    else if !isAsciiAlphanumeric first ||
        !rest.all (fun byte => isAsciiAlphanumeric byte || isSeparator byte) then
      .error (.invalidFormat field
        "use ASCII letters, digits, dot, underscore, colon, or hyphen")
    else .ok ()

/-- A bounded opaque identifier; `field` is the name its errors carry. -/
@[ext]
structure OpaqueId (field : String) where
  value : String
  valid : validateOpaque value field maxOpaqueIdLength = .ok ()
  deriving DecidableEq

/-- Parses a bounded opaque identifier. -/
def OpaqueId.parse (field value : String) : Except DomainError (OpaqueId field) :=
  match h : validateOpaque value field maxOpaqueIdLength with
  | .ok () => .ok ⟨value, h⟩
  | .error e => .error e

abbrev RequestId := OpaqueId "request_id"

abbrev ProblemId := OpaqueId "problem_id"

abbrev ProblemVersionId := OpaqueId "problem_version_id"

abbrev SubmissionId := OpaqueId "submission_id"

abbrev EvaluationId := OpaqueId "evaluation_id"

abbrev AttemptId := OpaqueId "attempt_id"

abbrev RuntimeId := OpaqueId "runtime_id"

abbrev ArtifactId := OpaqueId "artifact_id"

abbrev EvidenceId := OpaqueId "evidence_id"

abbrev NodeId := OpaqueId "node_id"

abbrev LeaseToken := OpaqueId "lease_token"

abbrev ClaimOperationId := OpaqueId "claim_operation_id"

abbrev ResultOperationId := OpaqueId "result_operation_id"

/-- A caller-stable idempotency key. -/
@[ext]
structure IdempotencyKey where
  value : String
  valid : validateOpaque value "idempotency_key" maxIdempotencyKeyLength = .ok ()
  deriving DecidableEq

def IdempotencyKey.parse (value : String) : Except DomainError IdempotencyKey :=
  match h : validateOpaque value "idempotency_key" maxIdempotencyKeyLength with
  | .ok () => .ok ⟨value, h⟩
  | .error e => .error e

/-- What `validateOpaque` accepts, read as a statement about the bytes. -/
theorem validateOpaque_eq_ok {value field : String} {maximum : Nat} :
    validateOpaque value field maximum = .ok () ↔
      ∃ first rest, bytes value = first :: rest ∧ (bytes value).length ≤ maximum ∧
        isAsciiAlphanumeric first = true ∧
          ∀ b ∈ rest, (isAsciiAlphanumeric b || isSeparator b) = true := by
  unfold validateOpaque
  split
  · simp [*]
  · rename_i first rest hbytes
    rw [hbytes]
    simp only [List.cons.injEq]
    split_ifs with hlen hformat
    · refine iff_of_false (by simp) ?_
      rintro ⟨_, _, ⟨rfl, rfl⟩, hle, -⟩
      omega
    · refine iff_of_false (by simp) ?_
      rintro ⟨_, _, ⟨rfl, rfl⟩, -, hfirst, hrest⟩
      have hall : rest.all (fun b => isAsciiAlphanumeric b || isSeparator b) = true :=
        List.all_eq_true.mpr hrest
      simp [hfirst, hall] at hformat
    · simp only [true_iff]
      simp only [Bool.or_eq_true, Bool.not_eq_true', not_or, Bool.not_eq_false] at hformat
      exact ⟨first, rest, ⟨rfl, rfl⟩, by omega, hformat.1, List.all_eq_true.mp hformat.2⟩

@[simp]
theorem OpaqueId.parse_value {field : String} (id : OpaqueId field) :
    OpaqueId.parse field id.value = .ok id := by
  unfold OpaqueId.parse
  split
  · rfl
  · rename_i h
    rw [id.valid] at h
    cases h

theorem OpaqueId.value_of_parse {field value : String} {id : OpaqueId field}
    (h : OpaqueId.parse field value = .ok id) : id.value = value := by
  unfold OpaqueId.parse at h
  split at h
  · exact Except.ok.inj h ▸ rfl
  · cases h

/-- An identifier is parsed from its own text and from no other. -/
theorem OpaqueId.parse_eq_ok {field value : String} {id : OpaqueId field} :
    OpaqueId.parse field value = .ok id ↔ id.value = value :=
  ⟨OpaqueId.value_of_parse, fun h => h ▸ id.parse_value⟩

/-- Reading an identifier under another field's name, within a larger bound. -/
theorem validateOpaque_mono {value field field' : String} {m m' : Nat} (hm : m ≤ m')
    (h : validateOpaque value field m = .ok ()) : validateOpaque value field' m' = .ok () := by
  obtain ⟨first, rest, hbytes, hlen, hfirst, hrest⟩ := validateOpaque_eq_ok.mp h
  exact validateOpaque_eq_ok.mpr ⟨first, rest, hbytes, by omega, hfirst, hrest⟩

/-! ### Content digests -/

/-- The bytes of `sha256:`. -/
def sha256Tag : List UInt8 := [115, 104, 97, 50, 53, 54, 58]

/-- `value.strip_prefix("sha256:")`, on bytes. -/
def stripSha256 (value : String) : Option (List UInt8) :=
  if sha256Tag.isPrefixOf (bytes value) then some ((bytes value).drop sha256Tag.length) else none

def isLowerHex (b : UInt8) : Bool := isAsciiDigit b || (97 ≤ b && b ≤ 102)

/-- The checks of `ContentDigest::parse`. -/
def validateContentDigest (value : String) : Except DomainError Unit :=
  match stripSha256 value with
  | none => .error (.invalidFormat "content_digest" "only lowercase sha256 digests are accepted")
  | some hex =>
    if hex.length ≠ 64 ∨ !hex.all isLowerHex then
      .error (.invalidFormat "content_digest"
        "expected sha256 followed by 64 lowercase hexadecimal characters")
    else .ok ()

/-- A lowercase SHA-256 content digest. -/
structure ContentDigest where
  value : String
  valid : validateContentDigest value = .ok ()
  deriving DecidableEq

def ContentDigest.parse (value : String) : Except DomainError ContentDigest :=
  match h : validateContentDigest value with
  | .ok () => .ok ⟨value, h⟩
  | .error e => .error e

/-! ### Lowercase tokens -/

/-- The loop of `validate_lower_token`; `first` is the first byte of the whole value. -/
def scanLowerToken (field : String) (first : Option UInt8) :
    Bool → List UInt8 → Except DomainError Unit
  | segmentStart, [] =>
    if segmentStart then
      .error (.invalidFormat field "the value must not end with a separator")
    else .ok ()
  | segmentStart, byte :: rest =>
    if isSeparator byte then
      if segmentStart then
        .error (.invalidFormat field
          "separators must occur between lowercase alphanumeric segments")
      else scanLowerToken field first true rest
    else if isAsciiLowercase byte || isAsciiDigit byte then
      if segmentStart && isAsciiDigit byte && first == some byte then
        .error (.invalidFormat field "the first segment must start with a lowercase letter")
      else scanLowerToken field first false rest
    else
      .error (.invalidFormat field "use lowercase ASCII letters, digits, and bounded separators")

/-- `validate_lower_token`. -/
def validateLowerToken (value field : String) (maximum : Nat) : Except DomainError Unit :=
  if bytes value = [] then .error (.empty field)
  else if maximum < (bytes value).length then
    .error (.tooLong field maximum (bytes value).length)
  else scanLowerToken field (bytes value).head? true (bytes value)

/-- A bounded, lowercase capability token. -/
@[ext]
structure Capability where
  value : String
  valid : validateLowerToken value "capability" maxCapabilityLength = .ok ()
  deriving DecidableEq

def Capability.parse (value : String) : Except DomainError Capability :=
  match h : validateLowerToken value "capability" maxCapabilityLength with
  | .ok () => .ok ⟨value, h⟩
  | .error e => .error e

/-- A bounded evidence-kind token. -/
structure EvidenceKind where
  value : String
  valid : validateLowerToken value "evidence_kind" maxEvidenceKindLength = .ok ()
  deriving DecidableEq

def EvidenceKind.parse (value : String) : Except DomainError EvidenceKind :=
  match h : validateLowerToken value "evidence_kind" maxEvidenceKindLength with
  | .ok () => .ok ⟨value, h⟩
  | .error e => .error e

/-- The checks of `DiagnosticCode::parse`. -/
def validateDiagnosticCode (value : String) : Except DomainError Unit :=
  match bytes value with
  | [] => .error (.empty "diagnostic_code")
  | first :: rest =>
    if maxDiagnosticCodeLength < (first :: rest).length then
      .error (.tooLong "diagnostic_code" maxDiagnosticCodeLength (first :: rest).length)
    else if !isAsciiUppercase first ||
        !(first :: rest).all (fun b => isAsciiUppercase b || isAsciiDigit b || b == 95) then
      .error (.invalidFormat "diagnostic_code"
        "use uppercase ASCII letters, digits, and underscore")
    else .ok ()

/-- An uppercase, machine-readable diagnostic code. -/
structure DiagnosticCode where
  value : String
  valid : validateDiagnosticCode value = .ok ()
  deriving DecidableEq

def DiagnosticCode.parse (value : String) : Except DomainError DiagnosticCode :=
  match h : validateDiagnosticCode value with
  | .ok () => .ok ⟨value, h⟩
  | .error e => .error e

@[simp]
theorem Capability.parse_value (c : Capability) : Capability.parse c.value = .ok c := by
  unfold Capability.parse
  split
  · rfl
  · rename_i h
    rw [c.valid] at h
    cases h

theorem Capability.value_of_parse {value : String} {c : Capability}
    (h : Capability.parse value = .ok c) : c.value = value := by
  unfold Capability.parse at h
  split at h
  · exact Except.ok.inj h ▸ rfl
  · cases h

@[simp]
theorem ContentDigest.parse_value (d : ContentDigest) : ContentDigest.parse d.value = .ok d := by
  unfold ContentDigest.parse
  split
  · rfl
  · rename_i h
    rw [d.valid] at h
    cases h

@[simp]
theorem IdempotencyKey.parse_value (k : IdempotencyKey) :
    IdempotencyKey.parse k.value = .ok k := by
  unfold IdempotencyKey.parse
  split
  · rfl
  · rename_i h
    rw [k.valid] at h
    cases h

theorem ContentDigest.value_of_parse {value : String} {d : ContentDigest}
    (h : ContentDigest.parse value = .ok d) : d.value = value := by
  unfold ContentDigest.parse at h
  split at h
  · exact Except.ok.inj h ▸ rfl
  · cases h

theorem IdempotencyKey.value_of_parse {value : String} {k : IdempotencyKey}
    (h : IdempotencyKey.parse value = .ok k) : k.value = value := by
  unfold IdempotencyKey.parse at h
  split at h
  · exact Except.ok.inj h ▸ rfl
  · cases h

@[simp]
theorem EvidenceKind.parse_value (k : EvidenceKind) : EvidenceKind.parse k.value = .ok k := by
  unfold EvidenceKind.parse
  split
  · rfl
  · rename_i h
    rw [k.valid] at h
    cases h

@[simp]
theorem DiagnosticCode.parse_value (c : DiagnosticCode) :
    DiagnosticCode.parse c.value = .ok c := by
  unfold DiagnosticCode.parse
  split
  · rfl
  · rename_i h
    rw [c.valid] at h
    cases h

end OpenOJ
