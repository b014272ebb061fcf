import OpenOJ.Domain.Control
import OpenOJ.Domain.Result

/-!
# The control plane's commands and answers

The inputs of the store's operations, the errors it reports, and what its callers see of an
evaluation and of a lease. There are no functions here: these are the types that the layers above
the store and the store itself have in common.

* `CreateEvaluation`, `ClaimTask`, `RetryExpired`, `SubmitResult` and `CancelEvaluation` are the
  commands of the control plane itself, each with the time at which it is given;
* `JudgeClaim`, `JudgeRenew` and `JudgeSubmitResult` are what a judge node asks for: with the node's
  identity, an operation id under which a claim or a result can be repeated, and the capabilities
  the node has declared;
* `LeasePolicy` is how long a lease is and when it is to be renewed;
* `EvaluationSnapshot` and `TaskLease` are the two answers, and `JudgeRenewDirective` what a node is
  told when it renews: go on, or cancel.

`StoreError` has no texts: what a caller is told of an error is decided where it is told.
-/

namespace OpenOJ

/-- A server-owned lease policy: renewals come no later than half of the lease. -/
structure LeasePolicy where
  leaseDuration : LeaseDuration
  renewAfter : LeaseDuration
  valid : renewAfter.value ≤ leaseDuration.value / 2
  deriving DecidableEq

/-- The store's stable errors. -/
inductive StoreError where
  | invalidTime
  | idempotencyConflict
  | identityConflict
  | immutableReferenceConflict
  | notFound
  | noTaskAvailable
  | leaseConflict
  | staleLease
  | invalidTransition
  | terminalConflict
  | incompatibleSchema
  | unavailable
  | corruptData
  deriving DecidableEq, Repr

/-! ### Commands -/

structure CreateEvaluation where
  request : EvaluationRequest
  createdAt : UnixMillis
  deriving DecidableEq

structure ClaimTask where
  nodeId : NodeId
  leaseToken : LeaseToken
  now : UnixMillis
  leaseDuration : LeaseDuration
  deriving DecidableEq

structure RetryExpired where
  request : EvaluationRequest
  now : UnixMillis
  deriving DecidableEq

structure SubmitResult where
  idempotencyKey : IdempotencyKey
  leaseToken : LeaseToken
  result : EvaluationResult
  now : UnixMillis
  deriving DecidableEq

structure CancelEvaluation where
  idempotencyKey : IdempotencyKey
  evaluationId : EvaluationId
  result : EvaluationResult
  now : UnixMillis
  deriving DecidableEq

/-- Server-derived inputs of a judge node's claim. -/
structure JudgeClaim where
  nodeId : NodeId
  declaredCapabilities : List Capability
  operationId : ClaimOperationId
  leaseToken : LeaseToken
  now : UnixMillis
  leasePolicy : LeasePolicy
  deriving DecidableEq

/-- Server-derived inputs of a judge node's renewal. -/
structure JudgeRenew where
  nodeId : NodeId
  evaluationId : EvaluationId
  attemptId : AttemptId
  leaseToken : LeaseToken
  now : UnixMillis
  leasePolicy : LeasePolicy
  deriving DecidableEq

inductive JudgeRenewDirective where
  | continue (expiresAt : UnixMillis)
  | cancel
  deriving DecidableEq

/-- Server-derived inputs of a judge node's submission. -/
structure JudgeSubmitResult where
  nodeId : NodeId
  operationId : ResultOperationId
  leaseToken : LeaseToken
  result : EvaluationResult
  now : UnixMillis
  deriving DecidableEq

/-! ### Answers -/

/-- What a caller sees of an evaluation and its current attempt. -/
structure EvaluationSnapshot where
  evaluationId : EvaluationId
  state : EvaluationState
  currentAttemptId : AttemptId
  attemptNumber : Nat
  attemptState : AttemptState
  terminalResult : Bool
  deriving DecidableEq

/-- A granted lease. -/
structure TaskLease where
  request : EvaluationRequest
  nodeId : NodeId
  leaseToken : LeaseToken
  expiresAt : UnixMillis
  deriving DecidableEq

end OpenOJ
