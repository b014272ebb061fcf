import OpenOJ.Storage.Create

/-!
# Leases

Claiming, renewing and recovering attempts, as the transactions of the store do it.

* A claim takes the oldest ready task that no other transaction has locked (`nextClaimable`) and
  leases it (`claimTransaction`). `judgeClaimTask` is what a judge node calls: a lookup of its
  operation id (`claimReplay`), and a claim under it when the lookup finds nothing
  (`judgeClaimWrite`);
* a renewal moves the expiry of a lease to a policy's duration from now, or tells of a cancellation
  (`renewTransaction`);
* a retry replaces an attempt whose lease has expired by the next one (`retryTransaction`). It looks
  its key up first (`retryLookup`), and compares the next request with the current one, field by
  field (`sameEvaluationSemantics`), before it writes (`retryWrite`).

Each row has the functions by which these change it (`AttemptRow.claim`, `AttemptRow.renew`,
`EvaluationRow.requeue`, and `move` for a change of state), and each table one statement that
updates a row (`Database.updateEvaluation` and so on).
-/

namespace OpenOJ

open Outcome

/-! ### Statements -/

/-- `SET state, updated_at_ms` of an evaluation. -/
def EvaluationRow.move (e : EvaluationRow) (state : EvaluationState) (now : Int) :
    EvaluationRow :=
  { e with state, updatedAtMs := now }

/-- `SET state, updated_at_ms` of an attempt. -/
def AttemptRow.move (a : AttemptRow) (state : AttemptState) (now : Int) : AttemptRow :=
  { a with state, updatedAtMs := now }

/-- `SET state, updated_at_ms` of a task. -/
def TaskRow.move (t : TaskRow) (state : TaskState) (now : Int) : TaskRow :=
  { t with state, updatedAtMs := now }

/-- `UPDATE evaluations … WHERE evaluation_id = $1`. -/
def Database.updateEvaluation (db : Database) (id : EvaluationId)
    (f : EvaluationRow → EvaluationRow) : Except Violation Database :=
  db.updateRow id f

/-- `UPDATE evaluation_attempts … WHERE attempt_id = $1`. -/
def Database.updateAttempt (db : Database) (id : AttemptId) (f : AttemptRow → AttemptRow) :
    Except Violation Database :=
  db.updateRow id f

/-- `UPDATE evaluation_tasks … WHERE attempt_id = $1`. -/
def Database.updateTask (db : Database) (id : AttemptId) (f : TaskRow → TaskRow) :
    Except Violation Database :=
  db.updateRow id f

/-! ### Claiming -/

/-- What a claim sets of an attempt. -/
def AttemptRow.claim (a : AttemptRow) (nodeId : NodeId) (leaseToken : LeaseToken) (expiry : Int)
    (operationId : Option ClaimOperationId) (now : Int) : AttemptRow :=
  { a with
    state := .leased
    nodeId := some nodeId
    leaseToken := some leaseToken
    leaseExpiresAtMs := some expiry
    claimOperationId := operationId
    updatedAtMs := now }

/-- `$1::text[] IS NULL OR t.required_capabilities <@ $1`. -/
def declares (declared : Option (List String)) (t : TaskRow) : Bool :=
  declared.all fun capabilities => t.requiredCapabilities.all capabilities.contains

/-- The ready tasks of queued current attempts whose requirements are declared and whose
rows no other transaction holds. -/
def claimable (declared : Option (List String)) (locked : AttemptId → Bool) (db : Database) :
    List (TaskRow × AttemptRow × EvaluationRow) := do
  let t ← db.tasks.rows
  let a ← (db.attempts.find? t.attemptId).toList
  let e ← db.evaluations.rows.filter fun e => e.currentAttemptId = a.attemptId
  if t.state = .ready ∧ a.state = .queued ∧ e.state = .queued ∧ declares declared t = true ∧
      locked t.attemptId = false then [(t, a, e)] else []

/-- `ORDER BY t.created_at_ms, t.attempt_id FOR UPDATE OF t SKIP LOCKED LIMIT 1`. -/
def nextClaimable (declared : Option (List String)) (locked : AttemptId → Bool)
    (db : Database) : Option (TaskRow × AttemptRow × EvaluationRow) :=
  (claimable declared locked db).argmin fun row => position row.1.createdAtMs row.1.attemptId

section Operations

variable [Wire]

/-- `claim_task_with_capabilities`; `locked` are the task rows other transactions hold. -/
def claimTransaction (command : ClaimTask) (operationId : Option ClaimOperationId)
    (capabilities : Option (List String)) (locked : AttemptId → Bool) (db : Database) :
    Except StoreError (TaskLease × Database) := do
  let expiresAt ← reportAs .invalidTime (command.now.checkedAdd command.leaseDuration)
  let now ← orRefuse .invalidTime (toI64 command.now.value)
  let expiry ← orRefuse .invalidTime (toI64 expiresAt.value)
  let (t, a, _) ← orRefuse .noTaskAvailable (nextClaimable capabilities locked db)
  let request ← reportAs .corruptData (decodeEvaluationRequest a.requestPayload)
  refuseIf (¬request.Names a) .corruptData
  let db ← reportAs .unavailable (db.updateAttempt t.attemptId fun a =>
    a.claim command.nodeId command.leaseToken expiry operationId now)
  let db ← reportAs .unavailable (db.updateEvaluation a.evaluationId fun e => e.move .leased now)
  let db ← reportAs .unavailable (db.updateTask t.attemptId fun t => t.move .leased now)
  return ({ request, nodeId := command.nodeId, leaseToken := command.leaseToken, expiresAt }, db)

/-- `claim_task_with_capabilities`, as a whole. -/
def claimTaskWithCapabilities (command : ClaimTask) (operationId : Option ClaimOperationId)
    (capabilities : Option (List String)) (locked : AttemptId → Bool) (db : Database) :
    Except StoreError TaskLease × Database :=
  transact (claimTransaction command operationId capabilities locked db)
    (fun lease _ => .ok lease) db

/-- `claim_task`. -/
def claimTask (command : ClaimTask) (locked : AttemptId → Bool) (db : Database) :
    Except StoreError TaskLease × Database :=
  claimTaskWithCapabilities command none none locked db

/-- `claim_replay`: the lease a node's earlier call with this operation id obtained. -/
def claimReplay (command : JudgeClaim) (db : Database) :
    Except StoreError (Option TaskLease) :=
  match db.attempts.rows.find? fun a => a.claimOperationId = some command.operationId with
  | none => return none
  | some row => do
    let nodeId ← orRefuse .corruptData row.nodeId
    refuseIf (nodeId ≠ command.nodeId) .idempotencyConflict
    refuseIf (row.state ≠ .leased) .leaseConflict
    let leaseToken ← orRefuse .corruptData row.leaseToken
    let expiresAt ← orRefuse .corruptData row.leaseExpiresAtMs
    let request ← reportAs .corruptData (decodeEvaluationRequest row.requestPayload)
    let value ← orRefuse .corruptData (toU64 expiresAt)
    let expiresAt ← reportAs .corruptData (UnixMillis.new value)
    return some { request, nodeId := command.nodeId, leaseToken, expiresAt }

/-- The claim a judge node's command stands for. -/
def JudgeClaim.claimTask (command : JudgeClaim) : ClaimTask where
  nodeId := command.nodeId
  leaseToken := command.leaseToken
  now := command.now
  leaseDuration := command.leasePolicy.leaseDuration

/-- The second step of `judge_claim_task`: the claim itself. -/
def judgeClaimWrite (command : JudgeClaim) (locked : AttemptId → Bool) (db : Database) :
    Except StoreError TaskLease × Database :=
  claimTaskWithCapabilities command.claimTask (some command.operationId)
    (some (command.declaredCapabilities.map (·.value))) locked db

/-- `judge_claim_task`. -/
def judgeClaimTask (command : JudgeClaim) (locked : AttemptId → Bool) (db : Database) :
    Except StoreError TaskLease × Database :=
  match claimReplay command db with
  | .error e => (.error e, db)
  | .ok (some replayed) => (.ok replayed, db)
  | .ok none => judgeClaimWrite command locked db

/-! ### Renewing -/

/-- What a renewal sets of an attempt. -/
def AttemptRow.renew (a : AttemptRow) (expiry now : Int) : AttemptRow :=
  { a with leaseExpiresAtMs := some expiry, updatedAtMs := now }

/-- The transaction of `judge_renew_lease`. -/
def renewTransaction (command : JudgeRenew) (db : Database) :
    Except StoreError (JudgeRenewDirective × Database) := do
  let expiresAt ← reportAs .invalidTime
    (command.now.checkedAdd command.leasePolicy.leaseDuration)
  let now ← orRefuse .invalidTime (toI64 command.now.value)
  let expiry ← orRefuse .invalidTime (toI64 expiresAt.value)
  let (e, a) ← orRefuse .notFound (db.current? command.evaluationId)
  if e.state = .cancelled ∨ a.state = .cancelled then
    return (.cancel, db)
  else
    let nodeId ← orRefuse .corruptData a.nodeId
    let leaseToken ← orRefuse .corruptData a.leaseToken
    refuseIf (e.state ≠ .leased ∨ a.state ≠ .leased ∨
      e.currentAttemptId ≠ command.attemptId ∨ nodeId ≠ command.nodeId ∨
      leaseToken ≠ command.leaseToken) .staleLease
    let db ← reportAs .unavailable (db.updateAttempt command.attemptId fun a =>
      a.renew expiry now)
    return (.continue expiresAt, db)

/-- `judge_renew_lease`. -/
def judgeRenewLease (command : JudgeRenew) (db : Database) :
    Except StoreError JudgeRenewDirective × Database :=
  transact (renewTransaction command db) (fun directive _ => .ok directive) db

/-! ### Retrying -/

/-- `map_retry_insert_error`. -/
def mapRetryInsertError : Violation → StoreError
  | .unique => .identityConflict
  | .check | .foreignKey => .unavailable

/-- `same_evaluation_semantics`. -/
def sameEvaluationSemantics (current retry : EvaluationRequest) : Bool :=
  current.evaluationId = retry.evaluationId && current.problemVersion = retry.problemVersion &&
    current.submission = retry.submission && current.runtime = retry.runtime &&
    current.plan = retry.plan && current.policy = retry.policy &&
    current.requiredCapabilities = retry.requiredCapabilities

/-- What a retry sets of an evaluation. -/
def EvaluationRow.requeue (e : EvaluationRow) (attemptId : AttemptId) (now : Int) :
    EvaluationRow :=
  { e with state := .queued, currentAttemptId := attemptId, updatedAtMs := now }

/-- `replace_attempt`. -/
def replaceAttempt (currentAttemptId : AttemptId) (request : EvaluationRequest)
    (payload : List UInt8) (now : Int) (db : Database) : Except StoreError Database := do
  let db ← reportAs .unavailable (db.updateAttempt currentAttemptId fun a => a.move .expired now)
  let db ← reportAs .unavailable (db.updateTask currentAttemptId fun t => t.move .expired now)
  let db ← reportAs .unavailable (db.updateEvaluation request.evaluationId fun e =>
    e.requeue request.attemptId now)
  let db ← translate mapRetryInsertError (db.insertAttempt (attemptRow request payload now))
  translate mapInsertError (db.insertTask (taskRow request now))

/-- The lookup by attempt key: the evaluation an identical retry advanced. -/
def retryLookup (key : IdempotencyKey) (payload : List UInt8) (db : Database) :
    Except StoreError (Option EvaluationId) :=
  match db.attempts.rows.find? fun a => a.attemptIdempotencyKey = key with
  | some row => do
    refuseIf (row.requestPayload ≠ payload) .idempotencyConflict
    return some row.evaluationId
  | none => return none

/-- What a retry does when its key is unknown. -/
def retryWrite (command : RetryExpired) (payload : List UInt8) (now : Int) (db : Database) :
    Except StoreError Database := do
  let (e, a) ← orRefuse .notFound (db.current? command.request.evaluationId)
  refuseIf (e.state ≠ .leased ∨ a.state ≠ .leased) .invalidTransition
  let leaseExpiresAt ← orRefuse .corruptData a.leaseExpiresAtMs
  refuseIf (now ≤ leaseExpiresAt) .leaseConflict
  refuseIf ((command.request.attemptNumber : Int) ≠ a.attemptNumber + 1) .invalidTransition
  let currentRequest ← reportAs .corruptData (decodeEvaluationRequest a.requestPayload)
  refuseIf (sameEvaluationSemantics currentRequest command.request = false) .identityConflict
  let db ← replaceAttempt e.currentAttemptId command.request payload now db
  db.commit

/-- The transaction of `retry_expired`; it answers the evaluation to report on. -/
def retryTransaction (command : RetryExpired) (db : Database) :
    Except StoreError (EvaluationId × Database) := do
  let now ← orRefuse .invalidTime (toI64 command.now.value)
  let payload ← reportAs .corruptData (encodeEvaluationRequest command.request)
  match ← retryLookup command.request.idempotencyKey payload db with
  | some evaluationId => return (evaluationId, db)
  | none => return (command.request.evaluationId, ← retryWrite command payload now db)

/-- `retry_expired`. -/
def retryExpired (command : RetryExpired) (db : Database) :
    Except StoreError EvaluationSnapshot × Database :=
  transact (retryTransaction command db) (fun id db => evaluationStatus db id) db

end Operations
end OpenOJ
