import OpenOJ.Storage.Lease
import OpenOJ.Protocol.Result

/-!
# Terminal results

The first terminal result of an evaluation is kept for ever. A submission is fenced by the lease of
the current attempt, a cancellation is not; both answer a replay of the stored result and refuse any
other (`storedResult`).

* `submitTransaction` answers from the stored result where there is one, and else checks the states,
  the lease and the identity of the result before it writes; `submitResult` reports what it left;
* `judgeSubmitResult` is what a judge node calls: the node has to be the owner of the attempt
  (`ownerOf`, `judgeSubmitPrepare`), and the key of the result is its operation id;
* `cancelTransaction` and `cancelEvaluation` are the same for a cancellation, which needs no lease.

`writeTerminal` is the write that both have in common: the three rows move to the states that the
result's status stands for (`EvaluationStatus.evaluationState`, `EvaluationStatus.attemptState`,
`EvaluationStatus.taskState`), and the evaluation keeps the text and the key.
-/

namespace OpenOJ

open Outcome

/-- `map_terminal_error`. -/
def mapTerminalError : Violation → StoreError
  | .unique => .idempotencyConflict
  | .check | .foreignKey => .unavailable

/-- The states a result's status leaves an evaluation and its attempt in. -/
def EvaluationStatus.evaluationState : EvaluationStatus → EvaluationState
  | .completed => .completed
  | .failed => .failed
  | .cancelled => .cancelled

def EvaluationStatus.attemptState : EvaluationStatus → AttemptState
  | .completed => .completed
  | .failed => .failed
  | .cancelled => .cancelled

def EvaluationStatus.taskState : EvaluationStatus → TaskState
  | .completed | .failed => .completed
  | .cancelled => .cancelled

structure TerminalWrite where
  evaluationId : EvaluationId
  attemptId : AttemptId
  status : EvaluationStatus
  payload : List UInt8
  idempotencyKey : IdempotencyKey
  now : Int

/-- What a terminal write sets of an evaluation. -/
def EvaluationRow.finish (e : EvaluationRow) (status : EvaluationStatus) (payload : List UInt8)
    (key : IdempotencyKey) (now : Int) : EvaluationRow :=
  { e with
    state := status.evaluationState
    terminalResult := some payload
    resultIdempotencyKey := some key
    updatedAtMs := now }

/-- `write_terminal`. -/
def writeTerminal (write : TerminalWrite) (db : Database) : Except StoreError Database := do
  let db ← translate mapTerminalError (db.updateEvaluation write.evaluationId fun e =>
    e.finish write.status write.payload write.idempotencyKey write.now)
  let db ← reportAs .unavailable (db.updateAttempt write.attemptId fun a =>
    a.move write.status.attemptState write.now)
  reportAs .unavailable (db.updateTask write.attemptId fun t =>
    t.move write.status.taskState write.now)

/-- The stored-result check: whether the call replays the stored result, when there is
one. -/
def storedResult (e : EvaluationRow) (key : IdempotencyKey) (payload : List UInt8) :
    Except StoreError Bool :=
  match e.terminalResult with
  | none => return false
  | some stored =>
    if e.resultIdempotencyKey = some key then do
      refuseIf (stored ≠ payload) .idempotencyConflict
      return true
    else .error .terminalConflict

section Operations

variable [Wire]

/-- The transaction of `submit_result`; it answers the evaluation to report on. -/
def submitTransaction (command : SubmitResult) (db : Database) :
    Except StoreError (EvaluationId × Database) := do
  let payload ← reportAs .corruptData (encodeEvaluationResult command.result)
  let now ← orRefuse .invalidTime (toI64 command.now.value)
  let identity := command.result.identity
  let (e, a) ← orRefuse .notFound (db.current? identity.evaluationId)
  if ← storedResult e command.idempotencyKey payload then
    return (identity.evaluationId, db)
  else
    refuseIf (e.state ≠ .leased ∨ a.state ≠ .leased ∨ e.currentAttemptId ≠ identity.attemptId)
      .staleLease
    let storedLeaseToken ← orRefuse .corruptData a.leaseToken
    refuseIf (storedLeaseToken ≠ command.leaseToken) .staleLease
    let leaseExpiresAt ← orRefuse .corruptData a.leaseExpiresAtMs
    refuseIf (leaseExpiresAt < now) .staleLease
    let request ← reportAs .corruptData (decodeEvaluationRequest a.requestPayload)
    refuseIf (EvaluationIdentity.fromRequest request ≠ identity) .identityConflict
    let db ← writeTerminal
      { evaluationId := identity.evaluationId
        attemptId := identity.attemptId
        status := command.result.status
        payload
        idempotencyKey := command.idempotencyKey
        now } db
    return (identity.evaluationId, db)

/-- `submit_result`. -/
def submitResult (command : SubmitResult) (db : Database) :
    Except StoreError EvaluationSnapshot × Database :=
  transact (submitTransaction command db) (fun id db => evaluationStatus db id) db

/-- The owner query of `judge_submit_result`. Decoding a `NULL` owner fails the query. -/
def ownerOf (evaluationId : EvaluationId) (db : Database) : Except StoreError (Option NodeId) :=
  match db.current? evaluationId with
  | none => return none
  | some (_, a) => do
    let owner ← orRefuse .unavailable a.nodeId
    return some owner

/-- The submission a judge node's command stands for. -/
def JudgeSubmitResult.submitResult (command : JudgeSubmitResult)
    (idempotencyKey : IdempotencyKey) : SubmitResult where
  idempotencyKey := idempotencyKey
  leaseToken := command.leaseToken
  result := command.result
  now := command.now

/-- The checks of `judge_submit_result` before it submits. -/
def judgeSubmitPrepare (command : JudgeSubmitResult) (db : Database) :
    Except StoreError SubmitResult := do
  refuseIf (command.result.provenance.nodeId ≠ some command.nodeId) .identityConflict
  let owner ← ownerOf command.result.identity.evaluationId db
  refuseIf (owner ≠ some command.nodeId) .staleLease
  let idempotencyKey ← reportAs .corruptData (IdempotencyKey.parse command.operationId.value)
  return command.submitResult idempotencyKey

/-- `judge_submit_result`. -/
def judgeSubmitResult (command : JudgeSubmitResult) (db : Database) :
    Except StoreError EvaluationSnapshot × Database :=
  match judgeSubmitPrepare command db with
  | .error e => (.error e, db)
  | .ok submission => submitResult submission db

/-- The transaction of `cancel_evaluation`; it answers the evaluation to report on. -/
def cancelTransaction (command : CancelEvaluation) (db : Database) :
    Except StoreError (EvaluationId × Database) := do
  refuseIf (command.result.status ≠ .cancelled ∨
    command.result.identity.evaluationId ≠ command.evaluationId) .identityConflict
  let payload ← reportAs .corruptData (encodeEvaluationResult command.result)
  let now ← orRefuse .invalidTime (toI64 command.now.value)
  let (e, a) ← orRefuse .notFound (db.current? command.evaluationId)
  if ← storedResult e command.idempotencyKey payload then
    return (command.evaluationId, db)
  else
    refuseIf (¬(e.state = .queued ∨ e.state = .leased) ∨ ¬(a.state = .queued ∨ a.state = .leased))
      .invalidTransition
    refuseIf (e.currentAttemptId ≠ command.result.identity.attemptId) .identityConflict
    let request ← reportAs .corruptData (decodeEvaluationRequest a.requestPayload)
    refuseIf (EvaluationIdentity.fromRequest request ≠ command.result.identity)
      .identityConflict
    let db ← writeTerminal
      { evaluationId := command.evaluationId
        attemptId := e.currentAttemptId
        status := .cancelled
        payload
        idempotencyKey := command.idempotencyKey
        now } db
    return (command.evaluationId, db)

/-- `cancel_evaluation`. -/
def cancelEvaluation (command : CancelEvaluation) (db : Database) :
    Except StoreError EvaluationSnapshot × Database :=
  transact (cancelTransaction command db) (fun id db => evaluationStatus db id) db

end Operations
end OpenOJ
