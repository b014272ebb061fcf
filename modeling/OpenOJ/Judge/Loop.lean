import OpenOJ.Judge.Client
import OpenOJ.Service.Dispatch
import OpenOJ.Storage.FreshIds

/-!
# The loop of a judge node

A judge node runs one iteration of its worker after the other (`runLoop`), each with operation ids
of its own (`operationIdClaim`, `operationIdResult`), waits when there was no task, and stops at the
first error.

What was said of single calls holds of the whole loop. Two clients are indistinguishable
(`Worker.Indistinguishable`) when each call of the one answers what the same call of the other does
and leaves what that leaves; then iterations and loops with them are the same
(`Worker.Indistinguishable.runOnceAsync_eq`, `Worker.Indistinguishable.runLoop_eq`).

* `remote_indistinguishable`: the client of the service is indistinguishable from the store,
  relayed;
* `remote_loop`: so a node that has connected works, iteration after iteration, as if it asked the
  store itself and was told so much as the status codes tell: it leaves the same store, makes the
  same calls at the same times and ends in the same way.
-/

namespace OpenOJ

open Outcome

/-! ### Operation ids -/

/-- `operation_id`. -/
def operationId (tag : String) (draw : Option Draw) : Except String String := do
  let draw ← orRefuse "operation random source unavailable" draw
  return drawn (tag ++ "_") draw

/-- `operation_id_claim`. -/
def operationIdClaim (draw : Option Draw) : Except String ClaimOperationId := do
  let value ← operationId "claim" draw
  reportAs "claim operation generation failed" (OpaqueId.parse "claim_operation_id" value)

/-- `operation_id_result`. -/
def operationIdResult (draw : Option Draw) : Except String ResultOperationId := do
  let value ← operationId "result" draw
  reportAs "result operation generation failed" (OpaqueId.parse "result_operation_id" value)

/-- `run_loop`, for as many iterations as there are draws for a claim's and a result's operation;
`backoff` is the sleep after an iteration without a task. -/
def runLoop {σ : Type} (worker : Worker σ) (client : AsyncJudgeControlClient σ) (backoff : σ → σ) :
    List (Option Draw × Option Draw) → σ → Except String Unit × σ
  | [], s => (.ok (), s)
  | (claimDraw, resultDraw) :: draws, s =>
    match operationIdClaim claimDraw with
    | .error e => (.error e, s)
    | .ok claimOperationId =>
      match operationIdResult resultDraw with
      | .error e => (.error e, s)
      | .ok resultOperationId =>
        match worker.runOnceAsync client claimOperationId resultOperationId s with
        | (.error _, s) => (.error "judge worker iteration failed", s)
        | (.ok outcome, s) =>
          runLoop worker client backoff draws (if outcome = .noTask then backoff s else s)

/-! ### Two clients -/

section Agreement

variable {σ : Type} {worker : Worker σ} {client client' : AsyncJudgeControlClient σ}
  {backoff : σ → σ}

/-- Two clients that answer a worker's calls alike: its claims, its renewals, and the submissions
of what its executor makes of the lease's request. -/
structure Worker.Indistinguishable (worker : Worker σ)
    (client client' : AsyncJudgeControlClient σ) : Prop where
  claim : ∀ operationId s, client.claim operationId s = client'.claim operationId s
  renew : ∀ lease s, client.renew lease s = client'.renew lease s
  submit : ∀ lease operationId result s, (∃ s', (worker.execute lease.request s').1 = .ok result) →
    client.submit lease operationId result s = client'.submit lease operationId result s

theorem Worker.Indistinguishable.runOnceAsync_eq (h : worker.Indistinguishable client client')
    (claimOperationId : ClaimOperationId) (resultOperationId : ResultOperationId) (s : σ) :
    worker.runOnceAsync client claimOperationId resultOperationId s =
      worker.runOnceAsync client' claimOperationId resultOperationId s := by
  unfold Worker.runOnceAsync
  rw [h.claim]
  rcases client'.claim claimOperationId s with ⟨e | lease | _, s₁⟩
  · rfl
  · simp only [h.renew]
    rcases client'.renew lease s₁ with ⟨e | expiresAt | _, s₂⟩
    · rfl
    · rcases hexecute : worker.execute lease.request s₂ with ⟨e | result, s₃⟩
      · simp only [hexecute]
      · simp only [hexecute]
        rw [h.submit lease resultOperationId result s₃ ⟨s₂, congrArg Prod.fst hexecute⟩]
    · rfl
  · rfl

/-- A loop cannot tell such clients apart. -/
theorem Worker.Indistinguishable.runLoop_eq (h : worker.Indistinguishable client client')
    (draws : List (Option Draw × Option Draw)) (s : σ) :
    runLoop worker client backoff draws s = runLoop worker client' backoff draws s := by
  induction draws generalizing s with
  | nil => rfl
  | cons draw draws ih =>
    obtain ⟨claimDraw, resultDraw⟩ := draw
    unfold runLoop
    simp only [h.runOnceAsync_eq, ih]

end Agreement

/-! ### A node and the store -/

/-- The loop of a node in a setting: after an iteration without a task it lets time pass. -/
def Setting.loop {σ : Type} (setting : Setting σ) (noTaskBackoffMs : Nat)
    (draws : List (Option Draw × Option Draw)) (w : Clocked σ) : Except String Unit × Clocked σ :=
  runLoop setting.worker setting.client (fun w => { w with now := w.now + noTaskBackoffMs }) draws w

section Transparency

variable [Wire]

/-- A connected node cannot tell its way to the store from the store's own answers, relayed. -/
theorem remote_indistinguishable (hl : LosslessRequests) (hl' : LosslessResults)
    (setting : Setting Database) {remote : Remote}
    (hadmits : remote.service.Admits remote.client.nodeId remote.client.capabilities)
    (hstore : remote.service.store = true) :
    setting.worker.Indistinguishable { setting with plane := remote.plane }.client
      { setting with plane := remote.relayed }.client where
  claim operationId w := by
    simp only [Setting.client, Setting.call, remote_claim hl hadmits hstore]
  renew lease w := by
    simp only [Setting.client, Setting.call, remote_renew hadmits hstore]
  submit lease operationId result w := by
    rintro ⟨w', hexecute⟩
    have hidentity := setting.identified lease.request result hexecute
    simp only [Setting.client, Setting.call, remote_submit hl' hadmits hstore operationId hidentity]

/-- **The loop over the wire.** A node that has connected to the service works, iteration after
iteration, as if it asked the store itself and was told what is left of the answers: whatever gets
lost, whatever others call in between, and however long it runs. -/
theorem remote_loop (hl : LosslessRequests) (hl' : LosslessResults) (setting : Setting Database)
    {remote : Remote} {socketPath : String} {nodeId : NodeId} {capabilities : List Capability}
    (hconnect : UdsJudgeControlClient.connectTo socketPath nodeId capabilities
      (some fun request => translate (·.code.tonic) (remote.service.negotiate request)) =
        .ok remote.client)
    (hstore : remote.service.store = true) (draws : List (Option Draw × Option Draw))
    (w : Clocked Database) :
    { setting with plane := remote.plane }.loop remote.client.noTaskBackoffMs draws w =
      { setting with plane := remote.relayed }.loop remote.client.noTaskBackoffMs draws w := by
  obtain ⟨-, hadmits, hclient⟩ := connect_iff.mp hconnect
  have hadmits' : remote.service.Admits remote.client.nodeId remote.client.capabilities := by
    rw [hclient]
    exact hadmits
  exact (remote_indistinguishable hl hl' setting hadmits' hstore).runLoop_eq draws w

end Transparency

section Json

attribute [local instance] jsonWire

/-- The fixture's node and service, between which the answers to renewals get lost. -/
def fixtureRemote : Remote where
  service := fixtureService
  client := ⟨fixtureClaim.nodeId, fixtureRequest.requiredCapabilities,
    fixtureLeasePolicy.leaseDuration, 500⟩
  leaseToken _ := fixtureClaim.leaseToken
  locked _ _ := false
  delivery
    | _, .renew => .responseLost .unavailable
    | _, _ => .delivered

/-- The loop of that node, for two iterations over the store with the fixture. -/
theorem remote_loop_fixture :
    ∃ db a, store.Reachable db ∧ db.attempts.find? fixtureRequest.attemptId = some a ∧
      { fixtureSetting 500 with plane := fixtureRemote.plane }.loop
          fixtureRemote.client.noTaskBackoffMs
          [(fixtureEntropy 0, fixtureEntropy 1), (fixtureEntropy 2, fixtureEntropy 3)]
          ⟨1000, [], db⟩ =
        { fixtureSetting 500 with plane := fixtureRemote.relayed }.loop
          fixtureRemote.client.noTaskBackoffMs
          [(fixtureEntropy 0, fixtureEntropy 1), (fixtureEntropy 2, fixtureEntropy 3)]
          ⟨1000, [], db⟩ := by
  obtain ⟨payload, db, hrun, -, hcreated⟩ :=
    exists_created fixtureRequest fixtureParts_mediaType (by decide +kernel) ⟨0, by decide⟩
  have hconnect := connect_iff.mpr ⟨(by decide : "/run/judge.sock".toList.head? = some '/'),
    (⟨by decide +kernel, by decide +kernel⟩ :
      fixtureService.Admits fixtureClaim.nodeId fixtureRequest.requiredCapabilities), rfl⟩
  exact ⟨db, _, ⟨_, hrun⟩, hcreated.triple.attempt, remote_loop (WireType.json_lossless _)
    (WireType.json_lossless _) (fixtureSetting 500) hconnect rfl _ _⟩

end Json
end OpenOJ
