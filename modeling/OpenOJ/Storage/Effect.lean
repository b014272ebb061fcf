import OpenOJ.Storage.Store

/-!
# What a committed transaction does

Each transaction that writes has one effect, stated once: the rows it found, what it checked of
them, and the lookups of the database it leaves. There are five, and the rest of the development
reasons about these and never about the code of a transaction again:

* `Created`: an evaluation with its first attempt and task, and perhaps new references;
* `Claimed`: a queued evaluation, its attempt and its task are leased to a node;
* `Renewed`: the expiry of a lease is moved;
* `Superseded`: the current attempt expires and its successor is queued;
* `Finished`: an open evaluation ends with a stored result.

`Triple` is an evaluation with its current attempt and that attempt's task, as all of them find it;
`Linked` is the weaker fact that is there before the task was read.

The section on statements has one lemma for each write of a row (`Database.updateEvaluation_spec`
and so on): a statement writes one table and leaves the others alone.
-/

namespace OpenOJ

open Outcome

/-! ### Statements

Each statement writes one table and leaves the others alone. -/

section Statements

variable {db db' : Database}

theorem Database.updateEvaluation_spec {id : EvaluationId} {f : EvaluationRow → EvaluationRow}
    {e : EvaluationRow} (h : db.updateEvaluation id f = .ok db')
    (he : db.evaluations.find? id = some e) (hf : ∀ r, (f r).evaluationId = r.evaluationId) :
    db'.evaluations.find? = Function.update db.evaluations.find? id (some (f e)) ∧
      db'.attempts = db.attempts ∧ db'.tasks = db.tasks ∧
        db'.toReferences = db.toReferences := by
  obtain ⟨hfind, table, rfl⟩ := Database.updateRow_spec h he hf
  exact ⟨hfind, rfl, rfl, rfl⟩

theorem Database.updateAttempt_spec {id : AttemptId} {f : AttemptRow → AttemptRow}
    {a : AttemptRow} (h : db.updateAttempt id f = .ok db')
    (ha : db.attempts.find? id = some a) (hf : ∀ r, (f r).attemptId = r.attemptId) :
    db'.attempts.find? = Function.update db.attempts.find? id (some (f a)) ∧
      db'.evaluations = db.evaluations ∧ db'.tasks = db.tasks ∧
        db'.toReferences = db.toReferences := by
  obtain ⟨hfind, table, rfl⟩ := Database.updateRow_spec h ha hf
  exact ⟨hfind, rfl, rfl, rfl⟩

theorem Database.updateTask_spec {id : AttemptId} {f : TaskRow → TaskRow} {t : TaskRow}
    (h : db.updateTask id f = .ok db') (ht : db.tasks.find? id = some t)
    (hf : ∀ r, (f r).attemptId = r.attemptId) :
    db'.tasks.find? = Function.update db.tasks.find? id (some (f t)) ∧
      db'.evaluations = db.evaluations ∧ db'.attempts = db.attempts ∧
        db'.toReferences = db.toReferences := by
  obtain ⟨hfind, table, rfl⟩ := Database.updateRow_spec h ht hf
  exact ⟨hfind, rfl, rfl, rfl⟩

theorem Database.insertEvaluation_spec {row : EvaluationRow}
    (h : db.insertEvaluation row = .ok db') :
    db.evaluations.find? row.evaluationId = none ∧
      db'.evaluations.find? =
        Function.update db.evaluations.find? row.evaluationId (some row) ∧
          db'.attempts = db.attempts ∧ db'.tasks = db.tasks ∧
            db'.toReferences = db.toReferences := by
  obtain ⟨hnew, hfind, table, rfl⟩ := Database.insertRow_spec h
  exact ⟨hnew, hfind, rfl, rfl, rfl⟩

theorem Database.insertAttempt_spec {row : AttemptRow} (h : db.insertAttempt row = .ok db') :
    db.attempts.find? row.attemptId = none ∧
      db'.attempts.find? = Function.update db.attempts.find? row.attemptId (some row) ∧
        db'.evaluations = db.evaluations ∧ db'.tasks = db.tasks ∧
          db'.toReferences = db.toReferences := by
  obtain ⟨hnew, hfind, table, rfl⟩ := Database.insertRow_spec h
  exact ⟨hnew, hfind, rfl, rfl, rfl⟩

theorem Database.insertTask_spec {row : TaskRow} (h : db.insertTask row = .ok db') :
    db.tasks.find? row.attemptId = none ∧
      db'.tasks.find? = Function.update db.tasks.find? row.attemptId (some row) ∧
        db'.evaluations = db.evaluations ∧ db'.attempts = db.attempts ∧
          db'.toReferences = db.toReferences := by
  obtain ⟨hnew, hfind, table, rfl⟩ := Database.insertRow_spec h
  exact ⟨hnew, hfind, rfl, rfl, rfl⟩

end Statements

/-! ### Effects -/

/-- The three rows of an evaluation: itself, its current attempt and the attempt's task. -/
structure Triple (db : Database) (e : EvaluationRow) (a : AttemptRow) (t : TaskRow) : Prop where
  evaluation : db.evaluations.find? e.evaluationId = some e
  attempt : db.attempts.find? e.currentAttemptId = some a
  task : db.tasks.find? e.currentAttemptId = some t
  owned : a.evaluationId = e.evaluationId

/-- Every evaluation has its three rows. Transactions that write rely on it: a claim finds an
evaluation by its attempt and updates it by the attempt's evaluation id. -/
def Linked (db : Database) : Prop :=
  ∀ id e, db.evaluations.find? id = some e → ∃ a t, Triple db e a t

/-- An evaluation was created, queued on its first attempt. -/
structure Created (db db' : Database) (request : EvaluationRequest) (payload : List UInt8)
    (now : Int) : Prop where
  newEvaluation : db.evaluations.find? request.evaluationId = none
  newAttempt : db.attempts.find? request.attemptId = none
  newTask : db.tasks.find? request.attemptId = none
  evaluations : db'.evaluations.find? = Function.update db.evaluations.find?
    request.evaluationId (some (evaluationRow request payload now))
  attempts : db'.attempts.find? = Function.update db.attempts.find? request.attemptId
    (some (attemptRow request payload now))
  tasks : db'.tasks.find? = Function.update db.tasks.find? request.attemptId
    (some (taskRow request now))

/-- A queued evaluation was leased to a node. -/
structure Claimed (db db' : Database) (e : EvaluationRow) (a : AttemptRow) (t : TaskRow)
    (nodeId : NodeId) (leaseToken : LeaseToken) (expiry : Int)
    (operationId : Option ClaimOperationId) (now : Int) : Prop where
  triple : Triple db e a t
  evaluationQueued : e.state = .queued
  attemptQueued : a.state = .queued
  taskReady : t.state = .ready
  expiry_gt : now < expiry
  evaluations : db'.evaluations.find? = Function.update db.evaluations.find? e.evaluationId
    (some (e.move .leased now))
  attempts : db'.attempts.find? = Function.update db.attempts.find? e.currentAttemptId
    (some (a.claim nodeId leaseToken expiry operationId now))
  tasks : db'.tasks.find? = Function.update db.tasks.find? e.currentAttemptId
    (some (t.move .leased now))
  references : db'.toReferences = db.toReferences

/-- The lease of an evaluation's current attempt was renewed. -/
structure Renewed (db db' : Database) (e : EvaluationRow) (a : AttemptRow)
    (expiry now : Int) : Prop where
  evaluation : db.evaluations.find? e.evaluationId = some e
  attempt : db.attempts.find? e.currentAttemptId = some a
  evaluationLeased : e.state = .leased
  attemptLeased : a.state = .leased
  expiry_gt : now < expiry
  evaluations : db'.evaluations.find? = db.evaluations.find?
  attempts : db'.attempts.find? = Function.update db.attempts.find? e.currentAttemptId
    (some (a.renew expiry now))
  tasks : db'.tasks.find? = db.tasks.find?
  references : db'.toReferences = db.toReferences

/-- An attempt whose lease had expired was replaced by the next one. -/
structure Superseded (db db' : Database) (e : EvaluationRow) (a : AttemptRow) (t : TaskRow)
    (request : EvaluationRequest) (payload : List UInt8) (now : Int) : Prop where
  triple : Triple db e a t
  evaluationLeased : e.state = .leased
  attemptLeased : a.state = .leased
  expired : ∃ expiry, a.leaseExpiresAtMs = some expiry ∧ expiry < now
  evaluationId_eq : request.evaluationId = e.evaluationId
  number : (request.attemptNumber : Int) = a.attemptNumber + 1
  newAttempt : db.attempts.find? request.attemptId = none
  newTask : db.tasks.find? request.attemptId = none
  evaluations : db'.evaluations.find? = Function.update db.evaluations.find? e.evaluationId
    (some (e.requeue request.attemptId now))
  attempts : db'.attempts.find? = Function.update (Function.update db.attempts.find?
    e.currentAttemptId (some (a.move .expired now))) request.attemptId
      (some (attemptRow request payload now))
  tasks : db'.tasks.find? = Function.update (Function.update db.tasks.find?
    e.currentAttemptId (some (t.move .expired now))) request.attemptId
      (some (taskRow request now))
  references : db'.toReferences = db.toReferences

/-- The first terminal result of an evaluation was stored. -/
structure Finished (db db' : Database) (e : EvaluationRow) (a : AttemptRow) (t : TaskRow)
    (status : EvaluationStatus) (payload : List UInt8) (key : IdempotencyKey) (now : Int) :
    Prop where
  triple : Triple db e a t
  unfinished : e.terminalResult = none
  evaluationOpen : e.state = .queued ∨ e.state = .leased
  attemptOpen : a.state = .queued ∨ a.state = .leased
  evaluations : db'.evaluations.find? = Function.update db.evaluations.find? e.evaluationId
    (some (e.finish status payload key now))
  attempts : db'.attempts.find? = Function.update db.attempts.find? e.currentAttemptId
    (some (a.move status.attemptState now))
  tasks : db'.tasks.find? = Function.update db.tasks.find? e.currentAttemptId
    (some (t.move status.taskState now))
  references : db'.toReferences = db.toReferences

/-- What one committed transaction does to the evaluations, attempts and tasks. -/
inductive Effect (db db' : Database) : Prop where
  | created {request payload now} (h : Created db db' request payload now)
  | claimed {e a t nodeId leaseToken expiry operationId now}
      (h : Claimed db db' e a t nodeId leaseToken expiry operationId now)
  | renewed {e a expiry now} (h : Renewed db db' e a expiry now)
  | superseded {e a t request payload now} (h : Superseded db db' e a t request payload now)
  | finished {e a t status payload key now} (h : Finished db db' e a t status payload key now)

end OpenOJ
