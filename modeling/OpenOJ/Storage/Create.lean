import OpenOJ.Storage.Read

/-!
# Creating evaluations

A creation first looks its idempotency key up (`createLookup`). A known key replays the evaluation
it created, if the requests are equal; an unknown one registers the request's immutable references
and inserts the evaluation, its first attempt and the attempt's task (`createWrite`). The two
together are one transaction, `createTransaction`, and `createEvaluation` reports what it left.

The lookup and the write are functions of their own because another call may come between them.

* `register` inserts a row of a registry, or compares it with the one that is there, and is used for
  the four kinds of reference: `registerArtifact`, `registerProblemVersion`, `registerSubmission`
  and `registerRuntime`;
* `evaluationRow`, `attemptRow` and `taskRow` are the rows of a new evaluation, and each is inserted
  by a statement of its own;
* `mapInsertError` is how a violated constraint is reported to the caller.
-/

namespace OpenOJ

open Outcome

/-- `map_insert_error`. -/
def mapInsertError : Violation → StoreError
  | .unique => .identityConflict
  | .check | .foreignKey => .unavailable

/-! ### Immutable references -/

/-- `INSERT … ON CONFLICT DO NOTHING`, then comparing the stored row with the given one. -/
def register {ρ : Type} [Relation.{0, 0} ρ] [DecidableEq ρ] (table : Table ρ) (row : ρ)
    (references : Prop) [Decidable references] : Except StoreError (Table ρ) :=
  match table.find? (Relation.key row) with
  | some stored => do
    refuseIf (stored ≠ row) .immutableReferenceConflict
    return table
  | none => do
    let table ← reportAs .unavailable (table.insert row)
    refuseIf (¬references) .unavailable
    return table

/-- The artifact row of a request's source. -/
def artifactRow (source : ArtifactRef) (sizeBytes : Int) : ArtifactRow where
  artifactId := source.artifactId
  digest := source.digest
  mediaType := source.mediaType
  sizeBytes := sizeBytes
  sensitivity := source.sensitivity

/-- `register_artifact`. -/
def registerArtifact (request : EvaluationRequest) (db : Database) :
    Except StoreError Database := do
  let size ← orRefuse .corruptData (toI64 request.submission.source.sizeBytes)
  let artifacts ← register db.artifacts (artifactRow request.submission.source size) True
  return { db with artifacts }

/-- `register_problem_version`. -/
def registerProblemVersion (request : EvaluationRequest) (db : Database) :
    Except StoreError Database := do
  let reference := request.problemVersion
  let problemVersions ← register db.problemVersions
    ⟨reference.problemVersionId, reference.problemId, reference.digest⟩ True
  return { db with problemVersions }

/-- `register_submission`. -/
def registerSubmission (request : EvaluationRequest) (db : Database) :
    Except StoreError Database := do
  let reference := request.submission
  let submissions ← register db.submissions
    ⟨reference.submissionId, reference.source.artifactId⟩
    ((db.artifacts.find? reference.source.artifactId).isSome)
  return { db with submissions }

/-- `register_runtime`. -/
def registerRuntime (request : EvaluationRequest) (db : Database) :
    Except StoreError Database := do
  let runtimes ← register db.runtimes ⟨request.runtime.runtimeId, request.runtime.digest⟩ True
  return { db with runtimes }

/-! ### Rows -/

/-- The row `insert_evaluation` inserts. -/
def evaluationRow (request : EvaluationRequest) (payload : List UInt8) (createdAt : Int) :
    EvaluationRow where
  evaluationId := request.evaluationId
  requestId := request.requestId
  creationIdempotencyKey := request.idempotencyKey
  problemVersionId := request.problemVersion.problemVersionId
  submissionId := request.submission.submissionId
  runtimeId := request.runtime.runtimeId
  initialRequest := payload
  state := .queued
  currentAttemptId := request.attemptId
  terminalResult := none
  resultIdempotencyKey := none
  createdAtMs := createdAt
  updatedAtMs := createdAt

/-- The row `insert_attempt` and `replace_attempt` insert. -/
def attemptRow (request : EvaluationRequest) (payload : List UInt8) (createdAt : Int) :
    AttemptRow where
  attemptId := request.attemptId
  evaluationId := request.evaluationId
  requestId := request.requestId
  attemptNumber := request.attemptNumber
  attemptIdempotencyKey := request.idempotencyKey
  requestPayload := payload
  state := .queued
  nodeId := none
  leaseToken := none
  leaseExpiresAtMs := none
  claimOperationId := none
  createdAtMs := createdAt
  updatedAtMs := createdAt

/-- The row `insert_task` inserts; the capabilities go in as the request lists them. -/
def taskRow (request : EvaluationRequest) (createdAt : Int) : TaskRow where
  attemptId := request.attemptId
  state := .ready
  requiredCapabilities := request.requiredCapabilities.map (·.value)
  createdAtMs := createdAt
  updatedAtMs := createdAt

/-- `INSERT INTO evaluations`. -/
def Database.insertEvaluation (db : Database) (row : EvaluationRow) : Except Violation Database :=
  db.insertRow row ((db.problemVersions.find? row.problemVersionId).isSome ∧
    (db.submissions.find? row.submissionId).isSome ∧ (db.runtimes.find? row.runtimeId).isSome)

/-- `INSERT INTO evaluation_attempts`. -/
def Database.insertAttempt (db : Database) (row : AttemptRow) : Except Violation Database :=
  db.insertRow row (db.evaluations.find? row.evaluationId).isSome

/-- `INSERT INTO evaluation_tasks`. -/
def Database.insertTask (db : Database) (row : TaskRow) : Except Violation Database :=
  db.insertRow row (db.attempts.find? row.attemptId).isSome

/-! ### The operation -/

/-- The lookup by creation key: the evaluation an identical request created. -/
def createLookup (key : IdempotencyKey) (payload : List UInt8) (db : Database) :
    Except StoreError (Option EvaluationId) :=
  match db.evaluations.rows.find? fun e => e.creationIdempotencyKey = key with
  | some row => do
    refuseIf (row.initialRequest ≠ payload) .idempotencyConflict
    return some row.evaluationId
  | none => return none

/-- What a creation writes when its key is unknown. -/
def createWrite (command : CreateEvaluation) (payload : List UInt8) (db : Database) :
    Except StoreError Database := do
  let request := command.request
  let db ← registerArtifact request db
  let db ← registerProblemVersion request db
  let db ← registerSubmission request db
  let db ← registerRuntime request db
  let createdAt ← orRefuse .invalidTime (toI64 command.createdAt.value)
  let db ← translate mapInsertError (db.insertEvaluation (evaluationRow request payload createdAt))
  let db ← translate mapInsertError (db.insertAttempt (attemptRow request payload createdAt))
  let db ← translate mapInsertError (db.insertTask (taskRow request createdAt))
  db.commit

section Operations

variable [Wire]

/-- The transaction of `create_evaluation`; it answers the evaluation to report on. -/
def createTransaction (command : CreateEvaluation) (db : Database) :
    Except StoreError (EvaluationId × Database) := do
  let payload ← reportAs .corruptData (encodeEvaluationRequest command.request)
  match ← createLookup command.request.idempotencyKey payload db with
  | some evaluationId => return (evaluationId, db)
  | none => return (command.request.evaluationId, ← createWrite command payload db)

/-- `create_evaluation`. -/
def createEvaluation (command : CreateEvaluation) (db : Database) :
    Except StoreError EvaluationSnapshot × Database :=
  transact (createTransaction command db) (fun id db => evaluationStatus db id) db

end Operations
end OpenOJ
