import OpenOJ.Foundation.Locks
import OpenOJ.Storage.Records

/-!
# Transactions and the rows they lock

The store's transactions as sequences of row locks. A transaction locks the rows its statements
select `FOR UPDATE` and the rows they update, one after another, and keeps them until it commits or
is aborted; while another transaction holds the next one, it waits. A claim starts from the task it
picks among those nobody holds and goes on to the attempt and the evaluation; every other call
starts from the evaluation and its current attempt, and those that end an attempt go on to the task.

What a call is to update depends on the rows it has read, so each statement is carried out on the
database as it is when the transaction comes to it, and what a transaction writes is there for
others once it commits. A `Statement` is a place in the code at which a transaction may have to
wait:

* `LockingCall` is a call with its command, `LockingCall.opening` its first statement, and
  `LockingCall.prepare` what it makes of the rows that it has read;
* `Transaction` is a call in progress, and `Sessions` the database, the locks and the transactions
  of any number of connections;
* a `Turn` begins a transaction, advances it by one row, or aborts it; `sessions` is the machine of
  such turns, and `Sessions.Deadlocked` its states in which somebody waits for ever.
-/

namespace OpenOJ

open Outcome

/-- A row that transactions lock. -/
inductive RowId where
  | evaluation (id : EvaluationId)
  | attempt (id : AttemptId)
  | task (id : AttemptId)
  deriving DecidableEq

/-- A call with one transaction that locks rows. -/
inductive LockingCall where
  | claim (command : ClaimTask) (operationId : Option ClaimOperationId)
      (capabilities : Option (List String))
  | renew (command : JudgeRenew)
  | retry (command : RetryExpired)
  | submit (command : SubmitResult)
  | cancel (command : CancelEvaluation)

namespace LockingCall

def isClaim : LockingCall → Bool
  | .claim .. => true
  | _ => false

/-- The evaluation a call is about, which a claim finds out. -/
def evaluationId? : LockingCall → Option EvaluationId
  | .claim .. => none
  | .renew command => some command.evaluationId
  | .retry command => some command.request.evaluationId
  | .submit command => some command.result.identity.evaluationId
  | .cancel command => some command.evaluationId

section Statements

variable [Wire]

/-- The checks a call makes before it begins its transaction. -/
def prepare : LockingCall → Except StoreError Unit
  | .claim command _ _ => do
    let expiresAt ← reportAs .invalidTime (command.now.checkedAdd command.leaseDuration)
    let _ ← orRefuse .invalidTime (toI64 command.now.value)
    let _ ← orRefuse .invalidTime (toI64 expiresAt.value)
  | .renew command => do
    let expiresAt ← reportAs .invalidTime
      (command.now.checkedAdd command.leasePolicy.leaseDuration)
    let _ ← orRefuse .invalidTime (toI64 command.now.value)
    let _ ← orRefuse .invalidTime (toI64 expiresAt.value)
  | .retry command => do
    let _ ← orRefuse .invalidTime (toI64 command.now.value)
    let _ ← reportAs .corruptData (encodeEvaluationRequest command.request)
  | .submit command => do
    let _ ← reportAs .corruptData (encodeEvaluationResult command.result)
    let _ ← orRefuse .invalidTime (toI64 command.now.value)
  | .cancel command => do
    refuseIf (command.result.status ≠ .cancelled ∨
      command.result.identity.evaluationId ≠ command.evaluationId) .identityConflict
    let _ ← reportAs .corruptData (encodeEvaluationResult command.result)
    let _ ← orRefuse .invalidTime (toI64 command.now.value)

/-- The rows a call updates, in the order of its statements, once the rows it has selected pass its
checks; none where it replays or tells of a cancellation. -/
def updates (call : LockingCall) (e : EvaluationRow) (a : AttemptRow) :
    Except StoreError (List RowId) :=
  match call with
  | .claim .. => do
    let request ← reportAs .corruptData (decodeEvaluationRequest a.requestPayload)
    refuseIf (¬request.Names a) .corruptData
    return [.attempt a.attemptId, .evaluation a.evaluationId, .task a.attemptId]
  | .renew command =>
    if e.state = .cancelled ∨ a.state = .cancelled then
      return []
    else do
      let nodeId ← orRefuse .corruptData a.nodeId
      let leaseToken ← orRefuse .corruptData a.leaseToken
      refuseIf (e.state ≠ .leased ∨ a.state ≠ .leased ∨
        e.currentAttemptId ≠ command.attemptId ∨ nodeId ≠ command.nodeId ∨
        leaseToken ≠ command.leaseToken) .staleLease
      return [.attempt command.attemptId]
  | .retry command => do
    refuseIf (e.state ≠ .leased ∨ a.state ≠ .leased) .invalidTransition
    let leaseExpiresAt ← orRefuse .corruptData a.leaseExpiresAtMs
    refuseIf ((command.now.value : Int) ≤ leaseExpiresAt) .leaseConflict
    refuseIf ((command.request.attemptNumber : Int) ≠ a.attemptNumber + 1) .invalidTransition
    let currentRequest ← reportAs .corruptData (decodeEvaluationRequest a.requestPayload)
    refuseIf (sameEvaluationSemantics currentRequest command.request = false) .identityConflict
    return [.attempt e.currentAttemptId, .task e.currentAttemptId,
      .evaluation command.request.evaluationId]
  | .submit command => do
    let payload ← reportAs .corruptData (encodeEvaluationResult command.result)
    let identity := command.result.identity
    if ← storedResult e command.idempotencyKey payload then
      return []
    else
      refuseIf (e.state ≠ .leased ∨ a.state ≠ .leased ∨
        e.currentAttemptId ≠ identity.attemptId) .staleLease
      let storedLeaseToken ← orRefuse .corruptData a.leaseToken
      refuseIf (storedLeaseToken ≠ command.leaseToken) .staleLease
      let leaseExpiresAt ← orRefuse .corruptData a.leaseExpiresAtMs
      refuseIf (leaseExpiresAt < command.now.value) .staleLease
      let request ← reportAs .corruptData (decodeEvaluationRequest a.requestPayload)
      refuseIf (EvaluationIdentity.fromRequest request ≠ identity) .identityConflict
      return [.evaluation identity.evaluationId, .attempt identity.attemptId,
        .task identity.attemptId]
  | .cancel command => do
    let payload ← reportAs .corruptData (encodeEvaluationResult command.result)
    if ← storedResult e command.idempotencyKey payload then
      return []
    else
      refuseIf (¬(e.state = .queued ∨ e.state = .leased) ∨
        ¬(a.state = .queued ∨ a.state = .leased)) .invalidTransition
      refuseIf (e.currentAttemptId ≠ command.result.identity.attemptId) .identityConflict
      let request ← reportAs .corruptData (decodeEvaluationRequest a.requestPayload)
      refuseIf (EvaluationIdentity.fromRequest request ≠ command.result.identity)
        .identityConflict
      return [.evaluation command.evaluationId, .attempt e.currentAttemptId,
        .task e.currentAttemptId]

/-- What a transaction leaves when it commits. A claim keeps to the task it picked. -/
def commit (call : LockingCall) (attemptId : AttemptId) (db : Database) :
    Except StoreError Database :=
  match call with
  | .claim command operationId capabilities => do
    let (_, db) ← claimTransaction command operationId capabilities (· ≠ attemptId) db
    return db
  | .renew command => do
    let (_, db) ← renewTransaction command db
    return db
  | .retry command => do
    let now ← orRefuse .invalidTime (toI64 command.now.value)
    let payload ← reportAs .corruptData (encodeEvaluationRequest command.request)
    retryWrite command payload now db
  | .submit command => do
    let (_, db) ← submitTransaction command db
    return db
  | .cancel command => do
    let (_, db) ← cancelTransaction command db
    return db

end Statements
end LockingCall

/-- What a transaction comes to once it has locked the rows it wanted. -/
inductive Statement where
  /-- `SELECT … FOR UPDATE OF t SKIP LOCKED LIMIT 1`. -/
  | pick (capabilities : Option (List String))
  /-- `SELECT … WHERE attempt_idempotency_key = $1 FOR UPDATE`. -/
  | lookUp (key : IdempotencyKey)
  /-- `SELECT … FOR UPDATE OF e, a`. -/
  | select
  /-- The checks of the rows that were selected, an evaluation and this attempt. -/
  | check (attemptId : AttemptId)
  | commit (attemptId : AttemptId)
  /-- The end of a transaction that has written nothing. -/
  | leave

/-- The first statement of a call's transaction. -/
def LockingCall.opening : LockingCall → Statement
  | .claim _ _ capabilities => .pick capabilities
  | .retry command => .lookUp command.request.idempotencyKey
  | .renew _ | .submit _ | .cancel _ => .select

/-- A transaction in progress: the rows it is still to lock, and what it comes to then. -/
structure Transaction where
  call : LockingCall
  wanted : List RowId
  statement : Statement

/-- The transaction of a claim that has picked a task: it goes on to its updates, or gives the task
up. -/
def LockingCall.picked [Wire] (call : LockingCall) (t : TaskRow) (a : AttemptRow)
    (e : EvaluationRow) : Transaction :=
  match call.updates e a with
  | .ok rows => ⟨call, rows, .commit t.attemptId⟩
  | .error _ => ⟨call, [], .leave⟩

/-- The database as it was committed, the rows that are locked, and the transaction each
connection is in. -/
structure Sessions (ι : Type) where
  db : Database
  locks : Locks ι RowId
  transaction : ι → Option Transaction

/-- What may come next: a connection begins a transaction or takes its next step, or its
transaction is aborted. -/
inductive Turn (ι : Type) where
  | begin (i : ι) (call : LockingCall)
  | advance (i : ι)
  | abort (i : ι)

namespace Sessions

variable {ι : Type}

/-- The row a connection is about to lock. -/
def wants (st : Sessions ι) (i : ι) : Option RowId :=
  (st.transaction i).bind fun transaction => transaction.wanted.head?

def isClaim (st : Sessions ι) (i : ι) : Bool :=
  (st.transaction i).any fun transaction => transaction.call.isClaim

/-- The task rows that transactions hold. -/
def locked (st : Sessions ι) (attemptId : AttemptId) : Bool :=
  (st.locks (.task attemptId)).isSome

variable [DecidableEq ι]

/-- The transaction of a connection, from here on. -/
def put (st : Sessions ι) (i : ι) (transaction : Transaction) : Sessions ι :=
  { st with transaction := Function.update st.transaction i (some transaction) }

/-- A connection locks a row. -/
def lock (st : Sessions ι) (i : ι) (row : RowId) : Sessions ι :=
  { st with locks := st.locks.take i row }

/-- The transaction of a connection ends, and leaves this database. -/
def leave (st : Sessions ι) (i : ι) (db : Database) : Sessions ι :=
  { db, locks := st.locks.release i, transaction := Function.update st.transaction i none }

variable (st : Sessions ι) (i j : ι) (transaction : Transaction) (db : Database)

@[simp]
theorem put_transaction_self : (st.put i transaction).transaction i = some transaction :=
  Function.update_self _ _ _

theorem put_transaction_of_ne (h : j ≠ i) :
    (st.put i transaction).transaction j = st.transaction j :=
  Function.update_of_ne h _ _

@[simp] theorem leave_transaction_self : (st.leave i db).transaction i = none :=
  Function.update_self _ _ _

theorem leave_transaction_of_ne (h : j ≠ i) :
    (st.leave i db).transaction j = st.transaction j :=
  Function.update_of_ne h _ _

section Steps

variable [Wire]

/-- What a connection's transaction does when it has locked the rows it wanted. -/
def execute (call : LockingCall) : Statement → Sessions ι
  | .pick capabilities =>
    match nextClaimable capabilities st.locked st.db with
    | none => st.leave i st.db
    | some (t, a, e) => (st.lock i (.task t.attemptId)).put i (call.picked t a e)
  | .lookUp key =>
    match st.db.attempts.rows.find? fun a => a.attemptIdempotencyKey = key with
    | some row => st.put i ⟨call, [.attempt row.attemptId], .leave⟩
    | none => st.put i ⟨call, [], .select⟩
  | .select =>
    match call.evaluationId?.bind st.db.current? with
    | none => st.leave i st.db
    | some (e, a) =>
      st.put i ⟨call, [.evaluation e.evaluationId, .attempt a.attemptId], .check a.attemptId⟩
  | .check attemptId =>
    match call.evaluationId?.bind st.db.current? with
    | none => st.leave i st.db
    | some (e, a) =>
      -- the join is evaluated again on the locked rows, and finds nothing after a requeue
      if a.attemptId = attemptId then
        match call.updates e a with
        | .ok (row :: rows) => st.put i ⟨call, row :: rows, .commit attemptId⟩
        | _ => st.leave i st.db
      else st.leave i st.db
  | .commit attemptId =>
    match call.commit attemptId st.db with
    | .ok db => st.leave i db
    | .error _ => st.leave i st.db
  | .leave => st.leave i st.db

/-- A connection locks the next row it wants, waits for it, or goes on to its next statement. -/
def advance : Sessions ι :=
  match st.transaction i with
  | none => st
  | some ⟨call, [], statement⟩ => st.execute i call statement
  | some ⟨call, row :: rows, statement⟩ =>
    if st.locks.Free i row then (st.lock i row).put i ⟨call, rows, statement⟩ else st

/-- A connection without a transaction begins one, unless the call is refused before it. -/
def begin (call : LockingCall) : Sessions ι :=
  match st.transaction i, call.prepare with
  | none, .ok _ => st.put i ⟨call, [], call.opening⟩
  | _, _ => st

def next : Turn ι → Sessions ι
  | .begin i call => st.begin i call
  | .advance i => st.advance i
  | .abort i => st.leave i st.db

/-- The row that a connection's next step locks, and the one it wants after it. -/
def locking : Option (RowId × RowId) :=
  match st.transaction i with
  | some ⟨_, row :: rows, _⟩ =>
    if st.locks.Free i row then rows.head?.map fun after => (row, after) else none
  | some ⟨call, [], .pick capabilities⟩ =>
    match nextClaimable capabilities st.locked st.db with
    | none => none
    | some (t, a, e) =>
      (call.picked t a e).wanted.head?.map fun after => (.task t.attemptId, after)
  | _ => none

end Steps

/-- Transactions that wait for each other in a cycle. -/
def Deadlocked (st : Sessions ι) : Prop := st.locks.Deadlocked st.wants

end Sessions

/-- Connections that take turns on a database; none is in a transaction at first. -/
def sessions [Wire] {ι : Type} [DecidableEq ι] (db : Database) :
    Machine (Sessions ι) (Turn ι) Unit where
  start := ⟨db, .empty, fun _ => none⟩
  step turn st := ((), st.next turn)

end OpenOJ
