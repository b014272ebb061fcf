import OpenOJ.Storage.Schema
import OpenOJ.Protocol.Request
import Mathlib.Data.List.MinMax

/-!
# Reading the store

An evaluation is always read together with its current attempt (`Database.current?`), and a report
of it is a `snapshot` of the two rows. `evaluationStatus` is the read every operation ends with: it
decodes the request of the attempt and refuses to report an attempt whose request does not name it
(`EvaluationRequest.Names`).

Where a query orders rows and takes the first, `Position` is what it orders them by, and
`Position.Before` the order of the rows with their positions.

`transact` is how an operation is put together: a transaction that is rolled back when it is
refused, then a read of what it left. `Database.commit` is the end of a transaction, where the
deferred foreign key from an evaluation to its current attempt is checked.
-/

namespace OpenOJ

open Outcome

/-- `evaluations e JOIN evaluation_attempts a ON a.attempt_id = e.current_attempt_id WHERE
e.evaluation_id = $1`. -/
def Database.current? (db : Database) (evaluationId : EvaluationId) :
    Option (EvaluationRow × AttemptRow) := do
  let e ← db.evaluations.find? evaluationId
  let a ← db.attempts.find? e.currentAttemptId
  return (e, a)

theorem Database.current?_eq_some {db : Database} {evaluationId : EvaluationId}
    {e : EvaluationRow} {a : AttemptRow} :
    db.current? evaluationId = some (e, a) ↔
      db.evaluations.find? evaluationId = some e ∧
        db.attempts.find? e.currentAttemptId = some a := by
  simp only [Database.current?, Option.bind_eq_bind, Option.bind_eq_some_iff, pure,
    Option.some.injEq, Prod.mk.injEq]
  constructor
  · rintro ⟨e', he, a', ha, rfl, rfl⟩
    exact ⟨he, ha⟩
  · rintro ⟨he, ha⟩
    exact ⟨e, he, a, ha, rfl, rfl⟩

/-- `u32::try_from` of a signed 64-bit value. -/
def toU32 (value : Int) : Option Nat :=
  if 0 ≤ value ∧ value ≤ u32Max then some value.toNat else none

/-- `snapshot`. -/
def snapshot (evaluationId : EvaluationId) (evaluationState : EvaluationState)
    (attemptId : AttemptId) (attemptNumber : Int) (attemptState : AttemptState)
    (terminalResult : Bool) : Except StoreError EvaluationSnapshot := do
  let attemptNumber ← orRefuse .corruptData (toU32 attemptNumber)
  return {
    evaluationId
    state := evaluationState
    currentAttemptId := attemptId
    attemptNumber
    attemptState
    terminalResult }

/-- Whether a request is the one of a stored attempt. -/
def EvaluationRequest.Names (request : EvaluationRequest) (a : AttemptRow) : Prop :=
  request.evaluationId = a.evaluationId ∧ request.attemptId = a.attemptId ∧
    (request.attemptNumber : Int) = a.attemptNumber

instance (request : EvaluationRequest) (a : AttemptRow) : Decidable (request.Names a) :=
  inferInstanceAs (Decidable (_ ∧ _))

section Status

variable [Wire]

/-- `evaluation_status`. -/
def evaluationStatus (db : Database) (evaluationId : EvaluationId) :
    Except StoreError EvaluationSnapshot := do
  let (e, a) ← orRefuse .notFound (db.current? evaluationId)
  let request ← reportAs .corruptData (decodeEvaluationRequest a.requestPayload)
  refuseIf (request.evaluationId ≠ e.evaluationId ∨ request.attemptId ≠ a.attemptId ∨
    (request.attemptNumber : Int) ≠ a.attemptNumber) .corruptData
  snapshot e.evaluationId e.state a.attemptId a.attemptNumber a.state e.terminalResult.isSome

end Status

/-! ### Selecting one row -/

/-- Where a row stands under `ORDER BY` a time, then an attempt id; text is compared byte by
byte. -/
structure Position where
  timeMs : Int
  attemptId : List UInt8

/-- The position of a row with this time and this attempt id. -/
def position (timeMs : Int) (attemptId : AttemptId) : Position :=
  ⟨timeMs, Text.bytes attemptId.value⟩

/-- Whether a position comes before another one. -/
def Position.Before (p q : Position) : Prop :=
  p.timeMs < q.timeMs ∨ p.timeMs = q.timeMs ∧ p.attemptId < q.attemptId

theorem Position.Before.trans {p q r : Position} (h : p.Before q) (h' : q.Before r) :
    p.Before r := by
  rcases h with h | ⟨h, hid⟩
  · rcases h' with h' | ⟨h', -⟩
    · exact .inl (Int.lt_trans h h')
    · exact .inl (h' ▸ h)
  · rcases h' with h' | ⟨h', hid'⟩
    · exact .inl (h ▸ h')
    · exact .inr ⟨h.trans h', List.lt_trans hid hid'⟩

theorem Position.Before.irrefl (p : Position) : ¬p.Before p := by
  rintro (h | ⟨-, h⟩)
  · exact Int.lt_irrefl _ h
  · exact List.lt_irrefl _ h

/-- Rows that an `ORDER BY … LIMIT 1` chooses from are compared by their positions. -/
instance : Preorder Position where
  le p q := p.Before q ∨ p = q
  lt := Position.Before
  le_refl _ := .inr rfl
  le_trans := by
    rintro p q r (h | rfl) (h' | rfl)
    · exact .inl (h.trans h')
    · exact .inl h
    · exact .inl h'
    · exact .inr rfl
  lt_iff_le_not_ge p q := by
    refine ⟨fun h => ⟨.inl h, ?_⟩, ?_⟩
    · rintro (h' | rfl)
      · exact Position.Before.irrefl p (h.trans h')
      · exact Position.Before.irrefl _ h
    · rintro ⟨h | rfl, hne⟩
      · exact h
      · exact absurd (.inr rfl) hne

instance : DecidableLT Position := fun p q =>
  inferInstanceAs (Decidable (p.timeMs < q.timeMs ∨ p.timeMs = q.timeMs ∧
    p.attemptId < q.attemptId))

/-! ### Transactions -/

/-- `COMMIT` of a transaction that pointed an evaluation at an attempt: the deferred key
from an evaluation to its current attempt is checked. -/
def Database.commit (db : Database) : Except StoreError Database := do
  refuseIf (db.evaluations.rows.any fun e => (db.attempts.find? e.currentAttemptId).isNone)
    .unavailable
  return db

theorem Database.commit_eq_ok {db db' : Database} :
    db.commit = .ok db' ↔
      db' = db ∧ ∀ e ∈ db.evaluations.rows, (db.attempts.find? e.currentAttemptId).isSome := by
  simp only [Database.commit, bind_eq_ok, refuseIf_eq_ok, exists_const, pure, Except.pure,
    Except.ok.injEq, List.any_eq_true, not_exists, not_and, Option.isNone_iff_eq_none,
    ← Option.isSome_iff_ne_none, eq_comm (a := db)]
  exact and_comm

/-- Runs a transaction and, when it commits, what comes after it; a refused transaction
leaves the database as it was. -/
def transact {α β : Type} (transaction : Except StoreError (α × Database))
    (after : α → Database → Except StoreError β) (db : Database) :
    Except StoreError β × Database :=
  match transaction with
  | .ok (a, db') => (after a db', db')
  | .error e => (.error e, db)

@[simp] theorem transact_ok {α β : Type} (a : α) (db' : Database)
    (after : α → Database → Except StoreError β) (db : Database) :
    transact (.ok (a, db')) after db = (after a db', db') := rfl

@[simp] theorem transact_error {α β : Type} (e : StoreError)
    (after : α → Database → Except StoreError β) (db : Database) :
    transact (.error e) after db = (.error e, db) := rfl

end OpenOJ
