import OpenOJ.Foundation.Machine
import OpenOJ.Storage.Recover
import OpenOJ.Storage.Terminal

/-!
# The store

The operations of the store as one machine on databases (`store`, with `perform` for a single call).
An `Operation` has as its arguments everything it depends on beside the database:

* the command of its caller;
* for a claim, the task rows that other transactions hold when it looks for one;
* for a sweep, the draws of random bytes and the iterations of its loop.

The claim transaction is also an input of its own, with any operation id and capabilities: a judge
node's claim is a lookup followed by it, and other operations may come between.

An `Answer` is what the caller of an operation is told. The lemmas say, operation by operation, that
the next database is what the operation leaves (`next_createEvaluation` and so on).
-/

namespace OpenOJ

/-- One call of the store. -/
inductive Operation where
  | createEvaluation (command : CreateEvaluation)
  | evaluationStatus (evaluationId : EvaluationId)
  | claimTask (command : ClaimTask) (locked : AttemptId → Bool)
  | claimTaskWithCapabilities (command : ClaimTask) (operationId : Option ClaimOperationId)
      (capabilities : Option (List String)) (locked : AttemptId → Bool)
  | judgeClaimTask (command : JudgeClaim) (locked : AttemptId → Bool)
  | judgeRenewLease (command : JudgeRenew)
  | retryExpired (command : RetryExpired)
  | recoverExpired (now : UnixMillis) (entropy : Entropy) (fuel : Nat)
  | submitResult (command : SubmitResult)
  | judgeSubmitResult (command : JudgeSubmitResult)
  | cancelEvaluation (command : CancelEvaluation)

/-- What a call answers. -/
inductive Answer where
  | snapshot (answer : Except StoreError EvaluationSnapshot)
  | lease (answer : Except StoreError TaskLease)
  | directive (answer : Except StoreError JudgeRenewDirective)
  | recovered (answer : Option (Except StoreError Nat))

section Store

variable [Wire]

/-- Carries out one call. -/
def perform (operation : Operation) (db : Database) : Answer × Database :=
  match operation with
  | .createEvaluation command => (createEvaluation command db).map .snapshot id
  | .evaluationStatus evaluationId => (.snapshot (evaluationStatus db evaluationId), db)
  | .claimTask command locked => (claimTask command locked db).map .lease id
  | .claimTaskWithCapabilities command operationId capabilities locked =>
    (claimTaskWithCapabilities command operationId capabilities locked db).map .lease id
  | .judgeClaimTask command locked => (judgeClaimTask command locked db).map .lease id
  | .judgeRenewLease command => (judgeRenewLease command db).map .directive id
  | .retryExpired command => (retryExpired command db).map .snapshot id
  | .recoverExpired now entropy fuel => (recoverExpired now entropy fuel db).map .recovered id
  | .submitResult command => (submitResult command db).map .snapshot id
  | .judgeSubmitResult command => (judgeSubmitResult command db).map .snapshot id
  | .cancelEvaluation command => (cancelEvaluation command db).map .snapshot id

/-- The store: it starts from the migrated schema without rows. -/
def store : Machine Database Operation Answer where
  start := .empty
  step := perform

/-! ### The database after a call -/

theorem next_createEvaluation (command : CreateEvaluation) (db : Database) :
    store.next (.createEvaluation command) db = (createEvaluation command db).2 := by
  simp [Machine.next, store, perform]

theorem next_claimTask (command : ClaimTask) (locked : AttemptId → Bool) (db : Database) :
    store.next (.claimTask command locked) db = (claimTask command locked db).2 := by
  simp [Machine.next, store, perform]

theorem next_claimTaskWithCapabilities (command : ClaimTask) (operationId : Option ClaimOperationId)
    (capabilities : Option (List String)) (locked : AttemptId → Bool) (db : Database) :
    store.next (.claimTaskWithCapabilities command operationId capabilities locked) db =
      (claimTaskWithCapabilities command operationId capabilities locked db).2 := rfl

theorem next_judgeClaimTask (command : JudgeClaim) (locked : AttemptId → Bool) (db : Database) :
    store.next (.judgeClaimTask command locked) db = (judgeClaimTask command locked db).2 := by
  simp [Machine.next, store, perform]

theorem next_judgeRenewLease (command : JudgeRenew) (db : Database) :
    store.next (.judgeRenewLease command) db = (judgeRenewLease command db).2 := by
  simp [Machine.next, store, perform]

theorem next_retryExpired (command : RetryExpired) (db : Database) :
    store.next (.retryExpired command) db = (retryExpired command db).2 := by
  simp [Machine.next, store, perform]

theorem next_cancelEvaluation (command : CancelEvaluation) (db : Database) :
    store.next (.cancelEvaluation command) db = (cancelEvaluation command db).2 := by
  simp [Machine.next, store, perform]

end Store
end OpenOJ
