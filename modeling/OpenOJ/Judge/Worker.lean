import OpenOJ.Application.Evaluate
import OpenOJ.Service.ControlPlane

/-!
# The worker of a judge node

A worker claims a task, renews its lease once, executes the task and submits the result
(`Worker.runOnceAsync`). It runs over a world of its client's and its executor's, so that one
definition serves every control plane; `Setting` is such a world with a clock, in which calls take
time to arrive and others use the control plane in between. A run records what it called, and when
(`Clocked`).

* `claimedAt`, `renewedAt`, `submittedAt`: when each of the calls of a run arrives, and `claimed`,
  `renewed`, `submitted` what it is answered;
* `run_unclaimed`, `run_unrenewed`, `run_unexecuted`, `run_submitted`: the four ways in which a run
  ends, with its calls.

Before it works, a node negotiates (`UdsJudgeControlClient.connect`): it is told the lease policy of
the service, with the interval at which to renew, and checks it. The interval is negotiated and
checked, and not kept: nothing of it reaches the worker (`connect_renewAfter`).
-/

namespace OpenOJ

open Outcome

/-! ### Negotiation -/

inductive JudgeNodeError where
  | invalidConfiguration
  | incompatibleServer
  | unavailable
  deriving DecidableEq, Repr

structure NegotiateResponse where
  acceptedVersion : String
  allowedCapabilities : List String
  leaseDurationMs : Nat
  renewAfterMs : Nat
  noTaskBackoffMs : Nat
  deriving DecidableEq

/-- The control plane's answer to the capabilities it allows. -/
def LeasePolicy.negotiate (policy : LeasePolicy) (capabilities : List Capability) :
    NegotiateResponse where
  acceptedVersion := clientProtocolVersion
  allowedCapabilities := capabilities.map (·.value)
  leaseDurationMs := policy.leaseDuration.value
  renewAfterMs := policy.renewAfter.value
  noTaskBackoffMs := 500

structure UdsJudgeControlClient where
  nodeId : NodeId
  capabilities : List Capability
  leaseDuration : LeaseDuration
  noTaskBackoffMs : Nat
  deriving DecidableEq

/-- `UdsJudgeControlClient::connect`, once the server has answered. -/
def UdsJudgeControlClient.connect (nodeId : NodeId) (capabilities : List Capability)
    (response : NegotiateResponse) : Except JudgeNodeError UdsJudgeControlClient := do
  refuseIf (capabilities = []) .invalidConfiguration
  refuseIf (response.acceptedVersion ≠ clientProtocolVersion ∨
    response.allowedCapabilities.length ≠ capabilities.length ∨ response.leaseDurationMs = 0 ∨
      response.renewAfterMs = 0 ∨ response.leaseDurationMs / 2 < response.renewAfterMs ∨
        response.noTaskBackoffMs = 0) .incompatibleServer
  refuseIf (¬∀ capability ∈ capabilities, capability.value ∈ response.allowedCapabilities)
    .incompatibleServer
  let leaseDuration ← reportAs .incompatibleServer (LeaseDuration.new response.leaseDurationMs)
  return { nodeId, capabilities, leaseDuration, noTaskBackoffMs := response.noTaskBackoffMs }

theorem LeaseDuration.new_value (duration : LeaseDuration) :
    LeaseDuration.new duration.value = .ok duration := dif_pos duration.valid

/-- A node accepts every schedule that a lease policy can have. -/
theorem connect_negotiate (policy : LeasePolicy) (nodeId : NodeId)
    {capabilities : List Capability} (h : capabilities ≠ []) :
    UdsJudgeControlClient.connect nodeId capabilities (policy.negotiate capabilities) =
      .ok ⟨nodeId, capabilities, policy.leaseDuration, 500⟩ := by
  have hlease : 0 < (policy.negotiate capabilities).leaseDurationMs := policy.leaseDuration.valid.1
  have hrenew : 0 < (policy.negotiate capabilities).renewAfterMs := policy.renewAfter.valid.1
  have hschedule : (policy.negotiate capabilities).renewAfterMs ≤
      (policy.negotiate capabilities).leaseDurationMs / 2 := policy.valid
  simp only [UdsJudgeControlClient.connect, bind_eq_ok, refuseIf_eq_ok, exists_const, not_or,
    not_not, reportAs_eq_ok]
  refine ⟨h, ⟨rfl, List.length_map _, ?_, ?_, ?_, ?_⟩, ?_, _,
    LeaseDuration.new_value policy.leaseDuration, rfl⟩
  · exact hlease.ne'
  · exact hrenew.ne'
  · exact Nat.not_lt.mpr hschedule
  · exact Nat.succ_ne_zero 499
  · exact fun capability hmem => List.mem_map_of_mem hmem

/-- **The schedule is not kept**: what a node connects with is the same for every renewal
interval that it accepts. -/
theorem connect_renewAfter {nodeId : NodeId} {capabilities : List Capability}
    {response : NegotiateResponse} {client : UdsJudgeControlClient}
    (h : UdsJudgeControlClient.connect nodeId capabilities response = .ok client) {n : Nat}
    (hpos : 0 < n) (hle : n ≤ response.leaseDurationMs / 2) :
    UdsJudgeControlClient.connect nodeId capabilities { response with renewAfterMs := n } =
      .ok client := by
  simp only [UdsJudgeControlClient.connect, bind_eq_ok, refuseIf_eq_ok, exists_const,
    not_or] at h ⊢
  obtain ⟨hnonempty, ⟨hversion, hlength, hlease, -, -, hbackoff⟩, hallowed, h⟩ := h
  exact ⟨hnonempty, ⟨hversion, hlength, hlease, by omega, by omega, hbackoff⟩, hallowed, h⟩

/-! ### The worker -/

inductive WorkerClaim where
  | lease (lease : TaskLease)
  | noTask

inductive WorkerOutcome where
  | submitted
  | noTask
  | cancelled
  deriving DecidableEq, Repr

inductive WorkerError where
  | store (error : StoreError)
  | application (error : ApplicationError)
  deriving DecidableEq, Repr

/-- `AsyncJudgeControlClient`, over a world `σ`. -/
structure AsyncJudgeControlClient (σ : Type) where
  claim : ClaimOperationId → σ → Except StoreError WorkerClaim × σ
  renew : TaskLease → σ → Except StoreError JudgeRenewDirective × σ
  submit : TaskLease → ResultOperationId → EvaluationResult → σ → Except StoreError Unit × σ

/-- `Worker`, with the executor it is made of, over a world `σ`. -/
structure Worker (σ : Type) where
  execute : EvaluationRequest → σ → Except ApplicationError EvaluationResult × σ

/-- `Worker::run_once_async`. -/
def Worker.runOnceAsync {σ : Type} (worker : Worker σ) (client : AsyncJudgeControlClient σ)
    (claimOperationId : ClaimOperationId) (resultOperationId : ResultOperationId) (s : σ) :
    Except WorkerError WorkerOutcome × σ :=
  match client.claim claimOperationId s with
  | (.error e, s) => (.error (.store e), s)
  | (.ok .noTask, s) => (.ok .noTask, s)
  | (.ok (.lease lease), s) =>
    match client.renew lease s with
    | (.error e, s) => (.error (.store e), s)
    | (.ok .cancel, s) => (.ok .cancelled, s)
    | (.ok (.continue _), s) =>
      match worker.execute lease.request s with
      | (.error e, s) => (.error (.application e), s)
      | (.ok result, s) =>
        match client.submit lease resultOperationId result s with
        | (.error e, s) => (.error (.store e), s)
        | (.ok (), s) => (.ok .submitted, s)

/-! ### A world with a clock -/

/-- The calls of a worker. -/
inductive ControlCall where
  | claim
  | renew
  | submit
  deriving DecidableEq, Repr

/-- A control plane, which handles each call at a time of its clock. -/
structure ControlPlane (σ : Type) where
  claim : ClaimOperationId → Nat → σ → Except StoreError WorkerClaim × σ
  renew : TaskLease → Nat → σ → Except StoreError JudgeRenewDirective × σ
  submit : TaskLease → ResultOperationId → EvaluationResult → Nat → σ →
    Except StoreError Unit × σ

/-- What a worker's run depends on: its control plane and what others do there before each of
its calls is handled, how long calls and answers are under way, and its executor, which
answers for the request it was given and takes its time. -/
structure Setting (σ : Type) where
  plane : ControlPlane σ
  meanwhile : ControlCall → Nat → σ → σ
  out : ControlCall → Nat
  back : ControlCall → Nat
  execute : EvaluationRequest → Except ApplicationError EvaluationResult
  duration : EvaluationRequest → Nat
  identified : ∀ request result, execute request = .ok result →
    result.identity = EvaluationIdentity.fromRequest request

/-- The control plane's state, the time, and the calls it has handled with their times. -/
structure Clocked (σ : Type) where
  now : Nat
  calls : List (ControlCall × Nat)
  plane : σ

namespace Setting

variable {σ : Type} (setting : Setting σ)

/-- One call: it arrives, is handled after what others did meanwhile, and is answered. -/
def call {β : Type} (kind : ControlCall) (handle : Nat → σ → β × σ) (w : Clocked σ) :
    β × Clocked σ :=
  let now := w.now + setting.out kind
  let handled := handle now (setting.meanwhile kind now w.plane)
  (handled.1,
    { now := now + setting.back kind, calls := w.calls ++ [(kind, now)], plane := handled.2 })

/-- The client of the setting's control plane. -/
def client : AsyncJudgeControlClient (Clocked σ) where
  claim operationId := setting.call .claim (setting.plane.claim operationId)
  renew lease := setting.call .renew (setting.plane.renew lease)
  submit lease operationId result :=
    setting.call .submit (setting.plane.submit lease operationId result)

/-- The worker with the setting's executor. -/
def worker : Worker (Clocked σ) where
  execute request w :=
    (setting.execute request, { w with now := w.now + setting.duration request })

/-- One iteration of the worker. -/
def run (claimOperationId : ClaimOperationId) (resultOperationId : ResultOperationId)
    (w : Clocked σ) : Except WorkerError WorkerOutcome × Clocked σ :=
  setting.worker.runOnceAsync setting.client claimOperationId resultOperationId w

/-! ### What a run calls -/

/-- When the claim is handled. -/
def claimedAt (w : Clocked σ) : Nat := w.now + setting.out .claim

/-- When the renewal is handled. -/
def renewedAt (w : Clocked σ) : Nat :=
  setting.claimedAt w + setting.back .claim + setting.out .renew

/-- When the submission is handled: the execution comes before it. -/
def submittedAt (w : Clocked σ) (request : EvaluationRequest) : Nat :=
  setting.renewedAt w + setting.back .renew + setting.duration request + setting.out .submit

/-- What the claim is answered, and the control plane's state then. -/
def claimed (claimOperationId : ClaimOperationId) (w : Clocked σ) :
    Except StoreError WorkerClaim × σ :=
  setting.plane.claim claimOperationId (setting.claimedAt w)
    (setting.meanwhile .claim (setting.claimedAt w) w.plane)

/-- What the renewal is answered, and the control plane's state then. -/
def renewed (claimOperationId : ClaimOperationId) (w : Clocked σ) (lease : TaskLease) :
    Except StoreError JudgeRenewDirective × σ :=
  setting.plane.renew lease (setting.renewedAt w)
    (setting.meanwhile .renew (setting.renewedAt w) (setting.claimed claimOperationId w).2)

/-- What the submission is answered, and the control plane's state then. -/
def submitted (claimOperationId : ClaimOperationId) (resultOperationId : ResultOperationId)
    (w : Clocked σ) (lease : TaskLease) (result : EvaluationResult) :
    Except StoreError Unit × σ :=
  setting.plane.submit lease resultOperationId result (setting.submittedAt w lease.request)
    (setting.meanwhile .submit (setting.submittedAt w lease.request)
      (setting.renewed claimOperationId w lease).2)

variable {setting} {claimOperationId : ClaimOperationId} {resultOperationId : ResultOperationId}
  {w : Clocked σ} {lease : TaskLease}

/-- A claim that obtains no lease ends the run. -/
theorem run_unclaimed
    (h : ∀ lease, (setting.claimed claimOperationId w).1 ≠ .ok (.lease lease)) :
    (setting.run claimOperationId resultOperationId w).2.calls =
      w.calls ++ [(.claim, setting.claimedAt w)] := by
  cases hanswer : (setting.claimed claimOperationId w).1 with
  | error e =>
    simp only [claimed, claimedAt] at hanswer
    simp only [run, Worker.runOnceAsync, client, call, hanswer, claimedAt]
  | ok claim =>
    cases claim with
    | lease lease => exact absurd hanswer (h lease)
    | noTask =>
      simp only [claimed, claimedAt] at hanswer
      simp only [run, Worker.runOnceAsync, client, call, hanswer, claimedAt]

/-- A renewal that is not told to continue ends the run. -/
theorem run_unrenewed (hclaim : (setting.claimed claimOperationId w).1 = .ok (.lease lease))
    (h : ∀ x, (setting.renewed claimOperationId w lease).1 ≠ .ok (.continue x)) :
    (setting.run claimOperationId resultOperationId w).2.calls =
      w.calls ++ [(.claim, setting.claimedAt w)] ++ [(.renew, setting.renewedAt w)] := by
  cases hanswer : (setting.renewed claimOperationId w lease).1 with
  | error e =>
    simp only [renewed, claimed, claimedAt, renewedAt] at hclaim hanswer
    simp only [run, Worker.runOnceAsync, client, call, hclaim, hanswer, claimedAt, renewedAt]
  | ok directive =>
    cases directive with
    | «continue» x => exact absurd hanswer (h x)
    | cancel =>
      simp only [renewed, claimed, claimedAt, renewedAt] at hclaim hanswer
      simp only [run, Worker.runOnceAsync, client, call, hclaim, hanswer, claimedAt, renewedAt]

/-- An execution that yields no result ends the run. -/
theorem run_unexecuted (hclaim : (setting.claimed claimOperationId w).1 = .ok (.lease lease))
    {x : UnixMillis} (hrenew : (setting.renewed claimOperationId w lease).1 = .ok (.continue x))
    {e : ApplicationError} (hexecute : setting.execute lease.request = .error e) :
    (setting.run claimOperationId resultOperationId w).2.calls =
      w.calls ++ [(.claim, setting.claimedAt w)] ++ [(.renew, setting.renewedAt w)] := by
  simp only [renewed, claimed, claimedAt, renewedAt] at hclaim hrenew
  simp only [run, Worker.runOnceAsync, client, call, worker, hclaim, hrenew, hexecute, claimedAt,
    renewedAt]

/-- A result is submitted, and the run reports the answer. -/
theorem run_submitted (hclaim : (setting.claimed claimOperationId w).1 = .ok (.lease lease))
    {x : UnixMillis} (hrenew : (setting.renewed claimOperationId w lease).1 = .ok (.continue x))
    {result : EvaluationResult} (hexecute : setting.execute lease.request = .ok result) :
    (setting.run claimOperationId resultOperationId w).2.calls =
      w.calls ++ [(.claim, setting.claimedAt w)] ++ [(.renew, setting.renewedAt w)] ++
        [(.submit, setting.submittedAt w lease.request)] ∧
      (setting.run claimOperationId resultOperationId w).1 =
        match (setting.submitted claimOperationId resultOperationId w lease result).1 with
        | .error e => .error (.store e)
        | .ok () => .ok .submitted := by
  cases hanswer : (setting.submitted claimOperationId resultOperationId w lease result).1 <;>
    simp only [submitted, renewed, claimed, claimedAt, renewedAt, submittedAt]
      at hclaim hrenew hanswer <;>
    simp only [run, Worker.runOnceAsync, client, call, worker, hclaim, hrenew, hexecute, hanswer,
      claimedAt, renewedAt, submittedAt, and_self]

end Setting
end OpenOJ
