import OpenOJ.Foundation.Table
import OpenOJ.Protocol.Patterns
import OpenOJ.Application.Control

/-!
# The database schema

The tables of the two migrations, with the constraints that they declare:

* `ArtifactRow`, `ProblemVersionRow`, `SubmissionRow` and `RuntimeRow` are the registries of
  immutable references (`References`);
* `EvaluationRow`, `AttemptRow` and `TaskRow` are the rows that an evaluation has, and `Database` is
  all seven tables together.

Identifier columns hold validated identifiers, so the format constraints on them hold by type
(`OpaqueId.passes_format`); every other constraint is a `Relation.Check` (`EvaluationRow.Valid`,
`AttemptRow.Valid`), and every key and unique index is part of `Relation.Apart`
(`EvaluationRow.Apart`, `AttemptRow.Apart`). Foreign keys are checked by the statement that inserts
the referencing row, except the deferred one from an evaluation to its current attempt, which
`Database.commit` checks.

`validRequiredCapabilities` is the function the second migration defines for the capabilities of a
task, and `TableOf` says which table of the database a kind of row belongs to, so that inserting and
updating are each one function (`Database.insertRow`, `Database.updateRow`).
-/

namespace OpenOJ

open Outcome Text

/-- The format the migrations ask of every identifier column. -/
theorem OpaqueId.passes_format {name : String} (id : OpaqueId name) :
    Schema.opaquePattern.Matches (bytes id.value) := by
  obtain ⟨first, rest, hbytes, -, hfirst, hrest⟩ := validateOpaque_eq_ok.mp id.valid
  exact opaquePattern_matches.mpr ⟨first, rest, hbytes, hfirst, hrest⟩

/-- The range of a time column. -/
def InTimeRange (value : Int) : Prop := 0 ≤ value ∧ value ≤ maxUnixMillis

instance (value : Int) : Decidable (InTimeRange value) :=
  inferInstanceAs (Decidable (0 ≤ value ∧ value ≤ maxUnixMillis))

/-- `created_at_ms BETWEEN 0 AND … AND updated_at_ms BETWEEN created_at_ms AND …`. -/
def TimeBound (createdAtMs updatedAtMs : Int) : Prop :=
  InTimeRange createdAtMs ∧ createdAtMs ≤ updatedAtMs ∧ updatedAtMs ≤ maxUnixMillis

instance (createdAtMs updatedAtMs : Int) : Decidable (TimeBound createdAtMs updatedAtMs) :=
  inferInstanceAs (Decidable (_ ∧ _))

/-! ### Immutable references -/

structure ArtifactRow where
  artifactId : ArtifactId
  digest : ContentDigest
  mediaType : MediaType
  sizeBytes : Int
  sensitivity : ArtifactSensitivity
  deriving DecidableEq

instance : Relation ArtifactRow where
  Key := ArtifactId
  key := ArtifactRow.artifactId
  Check row := 1 ≤ (bytes row.mediaType.value).length ∧
    (bytes row.mediaType.value).length ≤ 129 ∧ 0 ≤ row.sizeBytes ∧
      row.sizeBytes ≤ 1099511627776
  Apart r s := r.artifactId ≠ s.artifactId
  apart_symm := Ne.symm
  apart_key := id

structure ProblemVersionRow where
  problemVersionId : ProblemVersionId
  problemId : ProblemId
  digest : ContentDigest
  deriving DecidableEq

instance : Relation ProblemVersionRow where
  Key := ProblemVersionId
  key := ProblemVersionRow.problemVersionId
  Check _ := True
  Apart r s := r.problemVersionId ≠ s.problemVersionId
  apart_symm := Ne.symm
  apart_key := id

structure SubmissionRow where
  submissionId : SubmissionId
  sourceArtifactId : ArtifactId
  deriving DecidableEq

instance : Relation SubmissionRow where
  Key := SubmissionId
  key := SubmissionRow.submissionId
  Check _ := True
  Apart r s := r.submissionId ≠ s.submissionId
  apart_symm := Ne.symm
  apart_key := id

structure RuntimeRow where
  runtimeId : RuntimeId
  digest : ContentDigest
  deriving DecidableEq

instance : Relation RuntimeRow where
  Key := RuntimeId
  key := RuntimeRow.runtimeId
  Check _ := True
  Apart r s := r.runtimeId ≠ s.runtimeId
  apart_symm := Ne.symm
  apart_key := id

/-! ### Evaluations -/

structure EvaluationRow where
  evaluationId : EvaluationId
  requestId : RequestId
  creationIdempotencyKey : IdempotencyKey
  problemVersionId : ProblemVersionId
  submissionId : SubmissionId
  runtimeId : RuntimeId
  initialRequest : List UInt8
  state : EvaluationState
  currentAttemptId : AttemptId
  terminalResult : Option (List UInt8)
  resultIdempotencyKey : Option IdempotencyKey
  createdAtMs : Int
  updatedAtMs : Int
  deriving DecidableEq

/-- `evaluations_request_bound`, `evaluations_result_pair` and `evaluations_time_bound`. -/
structure EvaluationRow.Valid (row : EvaluationRow) : Prop where
  requestBound : 1 ≤ row.initialRequest.length ∧ row.initialRequest.length ≤ 262144
  resultPair : row.terminalResult.isNone = row.resultIdempotencyKey.isNone
  resultBound : ∀ result ∈ row.terminalResult, 1 ≤ result.length ∧ result.length ≤ 1048576
  timeBound : TimeBound row.createdAtMs row.updatedAtMs

instance : DecidablePred EvaluationRow.Valid := fun row =>
  decidable_of_iff
    ((1 ≤ row.initialRequest.length ∧ row.initialRequest.length ≤ 262144) ∧
      row.terminalResult.isNone = row.resultIdempotencyKey.isNone ∧
        (∀ result ∈ row.terminalResult, 1 ≤ result.length ∧ result.length ≤ 1048576) ∧
          TimeBound row.createdAtMs row.updatedAtMs)
    ⟨fun ⟨h₁, h₂, h₃, h₄⟩ => ⟨h₁, h₂, h₃, h₄⟩, fun ⟨h₁, h₂, h₃, h₄⟩ => ⟨h₁, h₂, h₃, h₄⟩⟩

/-- The primary key and the two unique keys; rows without a result key never collide on
it. -/
structure EvaluationRow.Apart (r s : EvaluationRow) : Prop where
  evaluationId : r.evaluationId ≠ s.evaluationId
  creationKey : r.creationIdempotencyKey ≠ s.creationIdempotencyKey
  resultKey : r.resultIdempotencyKey = none ∨ r.resultIdempotencyKey ≠ s.resultIdempotencyKey

instance : DecidableRel EvaluationRow.Apart := fun r s =>
  decidable_of_iff
    (r.evaluationId ≠ s.evaluationId ∧ r.creationIdempotencyKey ≠ s.creationIdempotencyKey ∧
      (r.resultIdempotencyKey = none ∨ r.resultIdempotencyKey ≠ s.resultIdempotencyKey))
    ⟨fun ⟨h₁, h₂, h₃⟩ => ⟨h₁, h₂, h₃⟩, fun ⟨h₁, h₂, h₃⟩ => ⟨h₁, h₂, h₃⟩⟩

theorem EvaluationRow.Apart.symm {r s : EvaluationRow} (h : r.Apart s) : s.Apart r := by
  refine ⟨h.evaluationId.symm, h.creationKey.symm, ?_⟩
  rcases h.resultKey with hr | hr
  · rw [hr]
    cases s.resultIdempotencyKey <;> simp
  · exact .inr hr.symm

instance : Relation EvaluationRow where
  Key := EvaluationId
  key := EvaluationRow.evaluationId
  Check := EvaluationRow.Valid
  Apart := EvaluationRow.Apart
  apart_symm := EvaluationRow.Apart.symm
  apart_key := EvaluationRow.Apart.evaluationId

/-! ### Attempts -/

structure AttemptRow where
  attemptId : AttemptId
  evaluationId : EvaluationId
  requestId : RequestId
  attemptNumber : Int
  attemptIdempotencyKey : IdempotencyKey
  requestPayload : List UInt8
  state : AttemptState
  nodeId : Option NodeId
  leaseToken : Option LeaseToken
  leaseExpiresAtMs : Option Int
  claimOperationId : Option ClaimOperationId
  createdAtMs : Int
  updatedAtMs : Int
  deriving DecidableEq

/-- `evaluation_attempts_number_bound`, `…_request_bound`, `…_lease_fields` and
`…_time_bound`. -/
structure AttemptRow.Valid (row : AttemptRow) : Prop where
  numberBound : 1 ≤ row.attemptNumber ∧ row.attemptNumber ≤ 4294967295
  requestBound : 1 ≤ row.requestPayload.length ∧ row.requestPayload.length ≤ 262144
  leaseOwner : row.nodeId.isNone = row.leaseToken.isNone
  leaseExpiry : row.leaseToken.isNone = row.leaseExpiresAtMs.isNone
  expiryBound : ∀ expiry ∈ row.leaseExpiresAtMs, InTimeRange expiry
  timeBound : TimeBound row.createdAtMs row.updatedAtMs

instance : DecidablePred AttemptRow.Valid := fun row =>
  decidable_of_iff
    ((1 ≤ row.attemptNumber ∧ row.attemptNumber ≤ 4294967295) ∧
      (1 ≤ row.requestPayload.length ∧ row.requestPayload.length ≤ 262144) ∧
        row.nodeId.isNone = row.leaseToken.isNone ∧
          row.leaseToken.isNone = row.leaseExpiresAtMs.isNone ∧
            (∀ expiry ∈ row.leaseExpiresAtMs, InTimeRange expiry) ∧
              TimeBound row.createdAtMs row.updatedAtMs)
    ⟨fun ⟨h₁, h₂, h₃, h₄, h₅, h₆⟩ => ⟨h₁, h₂, h₃, h₄, h₅, h₆⟩,
      fun ⟨h₁, h₂, h₃, h₄, h₅, h₆⟩ => ⟨h₁, h₂, h₃, h₄, h₅, h₆⟩⟩

/-- The primary key, the unique keys and the partial unique index on claim operations. -/
structure AttemptRow.Apart (r s : AttemptRow) : Prop where
  attemptId : r.attemptId ≠ s.attemptId
  attemptKey : r.attemptIdempotencyKey ≠ s.attemptIdempotencyKey
  number : r.evaluationId ≠ s.evaluationId ∨ r.attemptNumber ≠ s.attemptNumber
  claimOperation : r.claimOperationId = none ∨ r.nodeId = none ∨ r.nodeId ≠ s.nodeId ∨
    r.claimOperationId ≠ s.claimOperationId

instance : DecidableRel AttemptRow.Apart := fun r s =>
  decidable_of_iff
    (r.attemptId ≠ s.attemptId ∧ r.attemptIdempotencyKey ≠ s.attemptIdempotencyKey ∧
      (r.evaluationId ≠ s.evaluationId ∨ r.attemptNumber ≠ s.attemptNumber) ∧
        (r.claimOperationId = none ∨ r.nodeId = none ∨ r.nodeId ≠ s.nodeId ∨
          r.claimOperationId ≠ s.claimOperationId))
    ⟨fun ⟨h₁, h₂, h₃, h₄⟩ => ⟨h₁, h₂, h₃, h₄⟩, fun ⟨h₁, h₂, h₃, h₄⟩ => ⟨h₁, h₂, h₃, h₄⟩⟩

theorem AttemptRow.Apart.symm {r s : AttemptRow} (h : r.Apart s) : s.Apart r := by
  refine ⟨h.attemptId.symm, h.attemptKey.symm, h.number.imp Ne.symm Ne.symm, ?_⟩
  rcases h.claimOperation with hr | hr | hr | hr
  · rw [hr]
    cases s.claimOperationId <;> simp
  · rw [hr]
    cases s.nodeId <;> simp
  · exact .inr (.inr (.inl hr.symm))
  · exact .inr (.inr (.inr hr.symm))

instance : Relation AttemptRow where
  Key := AttemptId
  key := AttemptRow.attemptId
  Check := AttemptRow.Valid
  Apart := AttemptRow.Apart
  apart_symm := AttemptRow.Apart.symm
  apart_key := AttemptRow.Apart.attemptId

/-! ### Tasks -/

inductive TaskState where
  | ready
  | leased
  | completed
  | cancelled
  | expired
  deriving DecidableEq, Repr

/-- `^[a-z0-9]+([.-][a-z0-9]+)*$`. -/
def taskCapabilityPattern : Regex :=
  (Regex.byte Schema.isLowerAlphanumeric).plus.seq
    ((Regex.byte fun b => b == 46 || b == 45).seq
      (Regex.byte Schema.isLowerAlphanumeric).plus).star

/-- The loop of `openoj_valid_required_capabilities`; text is compared byte by byte. -/
def validCapabilitiesFrom (previous : Option String) : List String → Bool
  | [] => true
  | capability :: rest =>
    taskCapabilityPattern.accepts (bytes capability) &&
      decide ((bytes capability).length ≤ 64) &&
        previous.all (fun previous => decide (bytes previous < bytes capability)) &&
          validCapabilitiesFrom (some capability) rest

/-- `openoj_valid_required_capabilities`. -/
def validRequiredCapabilities (capabilities : List String) : Bool :=
  decide (1 ≤ capabilities.length ∧ capabilities.length ≤ 64) &&
    validCapabilitiesFrom none capabilities

structure TaskRow where
  attemptId : AttemptId
  state : TaskState
  requiredCapabilities : List String
  createdAtMs : Int
  updatedAtMs : Int
  deriving DecidableEq

instance : Relation TaskRow where
  Key := AttemptId
  key := TaskRow.attemptId
  Check row := TimeBound row.createdAtMs row.updatedAtMs ∧
    validRequiredCapabilities row.requiredCapabilities = true
  Apart r s := r.attemptId ≠ s.attemptId
  apart_symm := Ne.symm
  apart_key := id

/-! ### The database -/

/-- The tables of immutable references. -/
structure References where
  artifacts : Table ArtifactRow
  problemVersions : Table ProblemVersionRow
  submissions : Table SubmissionRow
  runtimes : Table RuntimeRow

structure Database extends References where
  evaluations : Table EvaluationRow
  attempts : Table AttemptRow
  tasks : Table TaskRow

/-- The migrated schema, without rows. -/
def Database.empty : Database where
  artifacts := .empty
  problemVersions := .empty
  submissions := .empty
  runtimes := .empty
  evaluations := .empty
  attempts := .empty
  tasks := .empty

/-! ### Statements -/

/-- The table of the database that holds rows of one type. -/
class TableOf (ρ : Type) [Relation.{0, 0} ρ] where
  get : Database → Table ρ
  set : Table ρ → Database → Database
  get_set : ∀ table db, get (set table db) = table

instance : TableOf EvaluationRow where
  get := Database.evaluations
  set evaluations db := { db with evaluations }
  get_set _ _ := rfl

instance : TableOf AttemptRow where
  get := Database.attempts
  set attempts db := { db with attempts }
  get_set _ _ := rfl

instance : TableOf TaskRow where
  get := Database.tasks
  set tasks db := { db with tasks }
  get_set _ _ := rfl

section Statements

variable {ρ : Type} [Relation.{0, 0} ρ] [TableOf ρ]

/-- `INSERT INTO` a table whose immediate foreign keys are `references`. -/
def Database.insertRow (db : Database) (row : ρ) (references : Prop) [Decidable references] :
    Except Violation Database := do
  let table ← (TableOf.get db).insert row
  refuseIf (¬references) .foreignKey
  return TableOf.set table db

/-- `UPDATE … WHERE key = k`. -/
def Database.updateRow (db : Database) (k : Relation.Key ρ) (f : ρ → ρ) :
    Except Violation Database := do
  let table ← (TableOf.get db).update k f
  return TableOf.set table db

/-- An accepted insert adds one new row. -/
theorem Database.insertRow_spec {db db' : Database} {row : ρ} {references : Prop}
    [Decidable references] (h : db.insertRow row references = .ok db') :
    (TableOf.get db).find? (Relation.key row) = none ∧
      (TableOf.get db').find? =
        Function.update (TableOf.get db).find? (Relation.key row) (some row) ∧
          ∃ table : Table ρ, db' = TableOf.set table db := by
  obtain ⟨table, hinsert, h⟩ := bind_eq_ok.mp h
  obtain ⟨-, -, heq⟩ := bind_eq_ok.mp h
  obtain rfl := Except.ok.inj heq
  obtain ⟨hnew, hfind⟩ := Table.find?_insert hinsert
  rw [TableOf.get_set]
  exact ⟨hnew, hfind, table, rfl⟩

/-- An accepted update rewrites the row it names. -/
theorem Database.updateRow_spec {db db' : Database} {k : Relation.Key ρ} {f : ρ → ρ} {row : ρ}
    (h : db.updateRow k f = .ok db') (hrow : (TableOf.get db).find? k = some row)
    (hf : ∀ r, Relation.key (f r) = Relation.key r) :
    (TableOf.get db').find? = Function.update (TableOf.get db).find? k (some (f row)) ∧
      ∃ table : Table ρ, db' = TableOf.set table db := by
  obtain ⟨table, hupdate, heq⟩ := bind_eq_ok.mp h
  obtain rfl := Except.ok.inj heq
  have hfind := Table.find?_update hf hupdate
  rw [hrow] at hfind
  rw [TableOf.get_set]
  exact ⟨hfind, table, rfl⟩

end Statements
end OpenOJ
