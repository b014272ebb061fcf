import OpenOJ.Judge.HeldLease
import OpenOJ.Protocol.RoundTrip
import OpenOJ.Service.Handlers

/-!
# The judge node's client of the Judge Control service

A judge node does not call the store. Its client writes each call into a message, a transport
carries the message, the service reads it, asks the store, and writes the answer into another
message; on the way requests and responses can get lost (`Delivery`). `Remote` is all of that put
together as one control plane (`Remote.plane`), to be compared with the plane of a node that calls
the store itself (`NodeContext.plane`).

* `readClaim_claimResponse`, `readRenewal_renewResponse`, `readSubmission_submitResponse`: the
  client reads what the service wrote, in each of the three answers;
* `remote_claim`, `remote_renew`, `remote_submit`: a remote call is the direct call of the store by
  the node, relayed: the same lease, the same directive, the same rows, with errors as coarse as the
  status codes make them (`StoreError.relayed`);
* `connect_iff`: a node connects exactly when the policy allows what it declares
  (`JudgeControlService.Admits`), over an absolute socket path, and with the duration of leases that
  the service has.

The three comparisons rest on what the store's answers name: a report is about the evaluation that
was asked for (`judgeSubmitResult_evaluationId`), and a lease is for the node
(`judgeClaimTask_lease`).
-/

namespace OpenOJ

open Outcome Coding

/-! ### Status codes -/

/-- `tonic::Code`. -/
inductive TonicCode where
  | ok
  | cancelled
  | unknown
  | invalidArgument
  | deadlineExceeded
  | notFound
  | alreadyExists
  | permissionDenied
  | resourceExhausted
  | failedPrecondition
  | aborted
  | outOfRange
  | unimplemented
  | internal
  | unavailable
  | dataLoss
  | unauthenticated
  deriving DecidableEq, Repr

/-- The code that a status of the service is sent with. -/
def StatusCode.tonic : StatusCode → TonicCode
  | .invalidArgument => .invalidArgument
  | .notFound => .notFound
  | .alreadyExists => .alreadyExists
  | .permissionDenied => .permissionDenied
  | .failedPrecondition => .failedPrecondition
  | .internal => .internal
  | .unavailable => .unavailable

/-- `map_status`. -/
def mapStatus : TonicCode → StoreError
  | .notFound => .notFound
  | .alreadyExists => .idempotencyConflict
  | .failedPrecondition | .permissionDenied => .staleLease
  | .unavailable | .deadlineExceeded => .unavailable
  | _ => .corruptData

/-- What is left of an error of the store once it has been sent as a status. -/
def StoreError.relayed (e : StoreError) : StoreError := mapStatus (mapStoreError e).code.tonic

/-! ### The client -/

/-- The calls of a client over a world `σ`: each is answered with a message or with a code. -/
structure JudgeControlChannel (σ : Type) where
  claim : ClaimRequest → σ → Except TonicCode (Option ClaimResponse) × σ
  renewLease : RenewLeaseRequest → σ → Except TonicCode (Option RenewLeaseResponse) × σ
  submitResult : SubmitResultRequest → σ → Except TonicCode (Option SubmittedSnapshot) × σ

namespace UdsJudgeControlClient

def claimRequest (client : UdsJudgeControlClient) (operationId : ClaimOperationId) :
    ClaimRequest where
  version := clientProtocolVersion
  nodeId := client.nodeId.value
  claimOperationId := operationId.value
  capabilities := client.capabilities.map (·.value)

def renewRequest (client : UdsJudgeControlClient) (lease : TaskLease) : RenewLeaseRequest where
  version := clientProtocolVersion
  nodeId := client.nodeId.value
  evaluationId := lease.request.evaluationId.value
  attemptId := lease.request.attemptId.value
  leaseToken := lease.leaseToken.value

/-- How `renew` reads its answer. -/
def readRenewal (answer : Except TonicCode (Option RenewLeaseResponse)) :
    Except StoreError JudgeRenewDirective := do
  let response ← translate mapStatus answer
  match response with
  | some (.continueLease leaseExpiresAtUnixMs _) =>
    return .continue (← reportAs .corruptData (UnixMillis.new leaseExpiresAtUnixMs))
  | some .cancelLease => return .cancel
  | none => throw .corruptData

/-- How `submit` reads its answer. -/
def readSubmission (lease : TaskLease) (answer : Except TonicCode (Option SubmittedSnapshot)) :
    Except StoreError Unit := do
  let snapshot ← orRefuse .corruptData (← translate mapStatus answer)
  refuseIf (snapshot.evaluationId ≠ lease.request.evaluationId.value) .identityConflict

section Wire

variable [Wire]

/-- How `claim` reads its answer. -/
def readClaim (client : UdsJudgeControlClient) (answer : Except TonicCode (Option ClaimResponse)) :
    Except StoreError WorkerClaim := do
  let response ← translate mapStatus answer
  match response with
  | some (.noTask _) => return .noTask
  | some (.leased leased) =>
    let request ← reportAs .corruptData (decodeEvaluationRequest leased.canonicalRequest)
    refuseIf (request.evaluationId.value ≠ leased.evaluationId ∨
      request.attemptId.value ≠ leased.attemptId ∨
        request.attemptNumber ≠ leased.attemptNumber) .identityConflict
    let leaseToken ← reportAs .corruptData (OpaqueId.parse "lease_token" leased.leaseToken)
    let expiresAt ← reportAs .corruptData (UnixMillis.new leased.leaseExpiresAtUnixMs)
    return .lease { request, nodeId := client.nodeId, leaseToken, expiresAt }
  | none => throw .corruptData

def submitRequest (client : UdsJudgeControlClient) (lease : TaskLease)
    (operationId : ResultOperationId) (result : EvaluationResult) :
    Except StoreError SubmitResultRequest := do
  let canonicalResult ← reportAs .corruptData (encodeEvaluationResult result)
  return {
    version := clientProtocolVersion
    nodeId := client.nodeId.value
    evaluationId := lease.request.evaluationId.value
    attemptId := lease.request.attemptId.value
    leaseToken := lease.leaseToken.value
    resultOperationId := operationId.value
    canonicalResult }

/-- The client over a channel, as `AsyncJudgeControlClient`. -/
def onChannel {σ : Type} (client : UdsJudgeControlClient) (channel : JudgeControlChannel σ) :
    AsyncJudgeControlClient σ where
  claim operationId s :=
    (channel.claim (client.claimRequest operationId) s).map client.readClaim id
  renew lease s := (channel.renewLease (client.renewRequest lease) s).map readRenewal id
  submit lease operationId result s :=
    match client.submitRequest lease operationId result with
    | .error e => (.error e, s)
    | .ok request => (channel.submitResult request s).map (readSubmission lease) id

end Wire
end UdsJudgeControlClient

/-! ### The way between them -/

/-- What becomes of a call on its way: it is delivered and answered, or its request or its
response gets lost and the client sees a code. -/
inductive Delivery where
  | delivered
  | requestLost (code : TonicCode)
  | responseLost (code : TonicCode)

/-- A call that the service handles, as the client sees it. -/
def Delivery.carry {σ β : Type} (delivery : Delivery) (handle : σ → Except Status β × σ) (s : σ) :
    Except TonicCode (Option β) × σ :=
  match delivery with
  | .delivered => ((translate (·.code.tonic) (handle s).1).map some, (handle s).2)
  | .requestLost code => (.error code, s)
  | .responseLost code => (.error code, (handle s).2)

/-- A direct call, as a client sees it that makes the call through this delivery. -/
def Delivery.relay {σ β : Type} (delivery : Delivery) (call : σ → Except StoreError β × σ)
    (s : σ) : Except StoreError β × σ :=
  match delivery with
  | .delivered => (translate StoreError.relayed (call s).1, (call s).2)
  | .requestLost code => (.error (mapStatus code), s)
  | .responseLost code => (.error (mapStatus code), (call s).2)

/-- One transport argument for every call: where the answer that the client reads is what it would
be told directly, and the two leave the same state, the carried call is the relayed one. -/
theorem Delivery.carry_eq_relay {σ β γ : Type} (delivery : Delivery)
    {handle : σ → Except Status β × σ} {call : σ → Except StoreError γ × σ}
    {read : Except TonicCode (Option β) → Except StoreError γ} {s : σ}
    (hlost : ∀ code, read (.error code) = .error (mapStatus code))
    (hread : read ((translate (·.code.tonic) (handle s).1).map some) =
      translate StoreError.relayed (call s).1)
    (hstate : (handle s).2 = (call s).2) :
    (delivery.carry handle s).map read id = delivery.relay call s := by
  cases delivery with
  | delivered => exact Prod.ext hread hstate
  | requestLost code => exact Prod.ext (hlost code) rfl
  | responseLost code => exact Prod.ext (hlost code) hstate

section Wire

variable [Wire] {db : Database}

/-! ### What the store's answers name -/

/-- A claim's lease is the node's, and its request is one that was decoded. -/
theorem judgeClaimTask_lease {command : JudgeClaim} {locked : AttemptId → Bool} {lease : TaskLease}
    (h : (judgeClaimTask command locked db).1 = .ok lease) :
    lease.nodeId = command.nodeId ∧
      ∃ payload, decodeEvaluationRequest payload = .ok lease.request := by
  unfold judgeClaimTask at h
  split at h
  · cases h
  · -- the lease of an earlier call
    rename_i replayed hreplay
    obtain rfl := Except.ok.inj h
    unfold claimReplay at hreplay
    split at hreplay
    · cases hreplay
    · simp only [bind_eq_ok, reportAs_eq_ok, pure, Except.pure, Except.ok.injEq,
        Option.some.injEq] at hreplay
      obtain ⟨_, -, _, -, _, -, _, -, _, -, request, hrequest, _, -, _, -, rfl⟩ := hreplay
      exact ⟨rfl, _, hrequest⟩
  · rcases transact_cases (claimTransaction command.claimTask (some command.operationId)
      (some (command.declaredCapabilities.map (·.value))) locked db) (fun lease _ => .ok lease) db
      with ⟨e, -, heq⟩ | ⟨granted, db', hclaim, heq⟩
    · rw [judgeClaimWrite, claimTaskWithCapabilities, heq] at h
      cases h
    · rw [judgeClaimWrite, claimTaskWithCapabilities, heq] at h
      obtain rfl := Except.ok.inj h
      simp only [claimTransaction, bind_eq_ok, reportAs_eq_ok, pure, Except.pure, Except.ok.injEq,
        Prod.mk.injEq] at hclaim
      obtain ⟨_, -, _, -, _, -, ⟨_, _, _⟩, -, request, hrequest, _, -, _, -, _, -, _, -, rfl, -⟩ :=
        hclaim
      exact ⟨rfl, _, hrequest⟩

/-- A report on an evaluation names it. -/
theorem evaluationStatus_evaluationId {id : EvaluationId} {snapshot : EvaluationSnapshot}
    (h : evaluationStatus db id = .ok snapshot) : snapshot.evaluationId = id := by
  simp only [evaluationStatus, OpenOJ.snapshot, bind_eq_ok, orRefuse_eq_ok, pure, Except.pure,
    Except.ok.injEq] at h
  obtain ⟨⟨e, a⟩, hcurrent, _, -, _, -, _, -, rfl⟩ := h
  exact Table.key_of_find? (Database.current?_eq_some.mp hcurrent).1

/-- A submission that is accepted is answered with a report on its evaluation. -/
theorem judgeSubmitResult_evaluationId {command : JudgeSubmitResult}
    {snapshot : EvaluationSnapshot} (h : (judgeSubmitResult command db).1 = .ok snapshot) :
    snapshot.evaluationId = command.result.identity.evaluationId := by
  unfold judgeSubmitResult at h
  split at h
  · cases h
  · rename_i submission hprepare
    have hresult : submission.result = command.result := by
      simp only [judgeSubmitPrepare, bind_eq_ok, pure, Except.pure, Except.ok.injEq] at hprepare
      obtain ⟨_, -, _, -, _, -, _, -, rfl⟩ := hprepare
      rfl
    rcases transact_cases (submitTransaction submission db)
      (fun id db => evaluationStatus db id) db with ⟨e, -, heq⟩ | ⟨id, db', hsubmit, heq⟩
    · rw [submitResult, heq] at h
      cases h
    · rw [submitResult, heq] at h
      rw [evaluationStatus_evaluationId h, ← hresult]
      simp only [submitTransaction, bind_eq_ok] at hsubmit
      obtain ⟨_, -, _, -, ⟨_, _⟩, -, replay, -, hsubmit⟩ := hsubmit
      cases replay with
      | true => exact (congrArg Prod.fst (Except.ok.inj hsubmit)).symm
      | false =>
        simp only [Bool.false_eq_true, if_false, bind_eq_ok, pure, Except.pure, Except.ok.injEq,
          Prod.mk.injEq] at hsubmit
        obtain ⟨_, -, _, -, _, -, _, -, _, -, _, -, _, -, _, -, hid, -⟩ := hsubmit
        exact hid.symm

/-! ### Reading what was written -/

omit [Wire] in
theorem UnixMillis.new_value (time : UnixMillis) : UnixMillis.new time.value = .ok time :=
  dif_pos time.valid

namespace UdsJudgeControlClient

variable {client : UdsJudgeControlClient} {lease : TaskLease}

/-- The client reads from the service's answer to a claim what the store answered. -/
theorem readClaim_claimResponse (hl : LosslessRequests) {answer : Except StoreError TaskLease}
    (h : ∀ lease, answer = .ok lease → lease.nodeId = client.nodeId ∧
      ∃ payload, decodeEvaluationRequest payload = .ok lease.request) :
    client.readClaim ((translate (·.code.tonic)
        (JudgeControlService.claimResponse answer)).map some) =
      translate StoreError.relayed (workerClaim answer) := by
  cases answer with
  | error e => cases e <;> rfl
  | ok lease =>
    obtain ⟨hnode, input, hdecode⟩ := h lease rfl
    obtain ⟨payload, hencode, hback⟩ :=
      (reencodes_request hl).exists_decode (inverts_request hl) hdecode
    have hresponse : JudgeControlService.claimResponse (.ok lease) = .ok (.leased
        ⟨lease.request.evaluationId.value, lease.request.attemptId.value,
          lease.request.attemptNumber, lease.leaseToken.value, lease.expiresAt.value,
            payload⟩) := by
      simp only [JudgeControlService.claimResponse, hencode, reportAs_ok, ok_bind]
      rfl
    rw [hresponse]
    simp only [readClaim, translate_ok, Except.map, ok_bind, hback, reportAs_ok, ne_eq,
      not_true_eq_false, or_self, refuseIf_neg, not_false_eq_true, OpaqueId.parse_value,
      UnixMillis.new_value, workerClaim, ← hnode]
    rfl

omit [Wire] in
/-- Likewise of a renewal. -/
theorem readRenewal_renewResponse (service : JudgeControlService)
    (answer : Except StoreError JudgeRenewDirective) :
    readRenewal ((translate (·.code.tonic) (service.renewResponse answer)).map some) =
      translate StoreError.relayed answer := by
  rcases answer with e | expiresAt | _
  · cases e <;> rfl
  · simp only [JudgeControlService.renewResponse, JudgeControlService.renewAfterMs_eq, ok_bind,
      pure, Except.pure, translate_ok, Except.map, readRenewal, UnixMillis.new_value, reportAs_ok]
  · rfl

omit [Wire] in
/-- And of a submission, for the lease that it was made under. -/
theorem readSubmission_submitResponse {answer : Except StoreError EvaluationSnapshot}
    (h : ∀ snapshot, answer = .ok snapshot →
      snapshot.evaluationId = lease.request.evaluationId) :
    readSubmission lease ((translate (·.code.tonic)
        (JudgeControlService.submitResponse answer)).map some) =
      translate StoreError.relayed (answer.map fun _ => ()) := by
  cases answer with
  | error e => cases e <;> rfl
  | ok snapshot =>
    simp only [JudgeControlService.submitResponse, readSubmission, translate_ok, Except.map,
      ok_bind, orRefuse_some, h snapshot rfl, ne_eq, not_true_eq_false, refuseIf_neg,
      not_false_eq_true]

end UdsJudgeControlClient

/-! ### The node's control plane -/

/-- What a declaration must be for the node to be negotiated with: allowed by the policy, and
within the protocol's limit. -/
structure JudgeControlService.Admits (service : JudgeControlService) (nodeId : NodeId)
    (capabilities : List Capability) : Prop where
  authorized : service.nodePolicy.authorize nodeId capabilities = .ok ()
  bounded : capabilities.length ≤ maxDeclaredCapabilities

/-- A node's way to the store: the service and the node's client; and for each time what the service
draws as a lease token, the task rows that others hold, and what becomes of a call on its way. -/
structure Remote where
  service : JudgeControlService
  client : UdsJudgeControlClient
  leaseToken : Nat → LeaseToken
  locked : Nat → AttemptId → Bool
  delivery : Nat → ControlCall → Delivery

namespace Remote

/-- What the service's source of time and tokens answers at a time. -/
def draws (remote : Remote) (now : Nat) : Draws where
  leaseToken := .ok (remote.leaseToken now)
  now := reportAs ⟨.unavailable, "clock_unavailable"⟩ (UnixMillis.new now)

/-- The transport, at a time. -/
def channel (remote : Remote) (now : Nat) : JudgeControlChannel Database where
  claim request := (remote.delivery now .claim).carry
    (remote.service.claim request (remote.draws now) (remote.locked now))
  renewLease request := (remote.delivery now .renew).carry
    (remote.service.renewLease request (remote.draws now))
  submitResult request := (remote.delivery now .submit).carry
    (remote.service.submitResult request (remote.draws now))

/-- The node's client, its transport and the service, as a control plane. -/
def plane (remote : Remote) : ControlPlane Database where
  claim operationId now := (remote.client.onChannel (remote.channel now)).claim operationId
  renew lease now := (remote.client.onChannel (remote.channel now)).renew lease
  submit lease operationId result now :=
    (remote.client.onChannel (remote.channel now)).submit lease operationId result

/-- The node as the store knows it, at a time. -/
def context (remote : Remote) (now : Nat) : NodeContext where
  nodeId := remote.client.nodeId
  capabilities := remote.client.capabilities
  leaseToken := remote.leaseToken now
  policy := remote.service.leasePolicy
  locked := remote.locked now

/-- The direct calls of the node, relayed. A result that cannot be encoded is never sent. -/
def relayed (remote : Remote) : ControlPlane Database where
  claim operationId now :=
    (remote.delivery now .claim).relay ((remote.context now).plane.claim operationId now)
  renew lease now := (remote.delivery now .renew).relay ((remote.context now).plane.renew lease now)
  submit lease operationId result now db :=
    match encodeEvaluationResult result with
    | .error _ => (.error .corruptData, db)
    | .ok _ => (remote.delivery now .submit).relay
        ((remote.context now).plane.submit lease operationId result now) db

end Remote

/-! ### Transparency -/

section Transparency

variable {remote : Remote} {lease : TaskLease}

omit [Wire] in
private theorem draws_now (remote : Remote) (now : Nat) :
    (∃ time : UnixMillis, time.value = now ∧ (remote.draws now).now = .ok time) ∨
      (∃ e, UnixMillis.new now = .error e) ∧
        (remote.draws now).now = .error ⟨.unavailable, "clock_unavailable"⟩ := by
  by_cases h : now ≤ maxUnixMillis
  · have hnew : UnixMillis.new now = .ok ⟨now, h⟩ := dif_pos h
    exact .inl ⟨⟨now, h⟩, rfl, by rw [Remote.draws, hnew, reportAs_ok]⟩
  · have hnew : ∃ e, UnixMillis.new now = .error e := ⟨_, dif_neg h⟩
    obtain ⟨e, he⟩ := hnew
    exact .inr ⟨⟨e, he⟩, by rw [Remote.draws, he, reportAs_error]⟩

omit [Wire] in
/-- A call of the service, which asks the store at its clock's time, against the call at that
time. -/
private theorem carry_atTime {α β γ : Type} (delivery : Delivery) (remote : Remote) (now : Nat)
    {handle : Database → Except Status β × Database}
    {call : UnixMillis → Except StoreError α × Database}
    {respond : Except StoreError α → Except Status β}
    {answer : Except StoreError α → Except StoreError γ}
    {read : Except TonicCode (Option β) → Except StoreError γ}
    (hasked : ∀ time, (remote.draws now).now = .ok time →
      handle db = ((call time).map respond id))
    (hunasked : ∀ status, (remote.draws now).now = .error status →
      handle db = (.error status, db))
    (hlost : ∀ code, read (.error code) = .error (mapStatus code))
    (hread : ∀ time, read ((translate (·.code.tonic) (respond (call time).1)).map some) =
      translate StoreError.relayed (answer (call time).1))
    {direct : Database → Except StoreError γ × Database}
    (hdirect : direct db = atTime now call answer db) :
    (delivery.carry handle db).map read id = delivery.relay direct db := by
  rcases draws_now remote now with ⟨time, rfl, htime⟩ | ⟨⟨e, hnew⟩, htime⟩
  · rw [atTime_value] at hdirect
    refine delivery.carry_eq_relay hlost ?_ ?_
    · rw [hasked time htime, hdirect]
      exact hread time
    · rw [hasked time htime, hdirect]
      rfl
  · -- the clock cannot tell the time, and the store is not asked
    rw [atTime, hnew] at hdirect
    refine delivery.carry_eq_relay hlost ?_ ?_
    · rw [hunasked _ htime, hdirect]
      exact hlost .unavailable
    · rw [hunasked _ htime, hdirect]

omit [Wire] in
/-- A claim of a node that is admitted is negotiated. -/
theorem negotiateRequest_admitted {service : JudgeControlService} {nodeId : NodeId}
    {capabilities : List Capability} (hadmits : service.Admits nodeId capabilities) :
    service.negotiateRequest ⟨clientProtocolVersion, nodeId.value, capabilities.map (·.value)⟩ =
      .ok ⟨nodeId, capabilities, hadmits.authorized⟩ := by
  have hnodup := (NodePolicy.authorize_eq_ok.mp hadmits.authorized).2.2
  have hcapabilities : validateCapabilities (capabilities.map (·.value)) = .ok capabilities := by
    simp only [validateCapabilities, List.length_map, not_lt.mpr hadmits.bounded, refuseIf_neg,
      not_false_eq_true, ok_bind, mapM_map_ok Capability.parse_value, reportAs_ok, hnodup,
      not_true_eq_false]
    rfl
  simp only [JudgeControlService.negotiateRequest, validateProtocolVersion, ne_eq,
    not_true_eq_false, refuseIf_neg, not_false_eq_true, reportAs_ok, ok_bind,
    OpaqueId.parse_value, hcapabilities]
  split
  · rfl
  · rename_i e herror
    rw [hadmits.authorized] at herror
    cases herror

omit [Wire] in
/-- The service asks the store for the claim that the node would make. -/
theorem claimCommand_claimRequest {service : JudgeControlService} {client : UdsJudgeControlClient}
    (hadmits : service.Admits client.nodeId client.capabilities) (hstore : service.store = true)
    (operationId : ClaimOperationId) (draws : Draws) :
    service.claimCommand (client.claimRequest operationId) draws = (do
      let leaseToken ← draws.leaseToken
      let now ← draws.now
      return ⟨client.nodeId, client.capabilities, operationId, leaseToken, now,
        service.leasePolicy⟩) := by
  simp only [JudgeControlService.claimCommand, UdsJudgeControlClient.claimRequest,
    negotiateRequest_admitted hadmits, ok_bind, OpaqueId.parse_value, reportAs_ok, hstore,
    Bool.true_eq_false, refuseIf_neg, not_false_eq_true]

/-- **A remote claim** is the direct one, relayed. -/
theorem remote_claim (hl : LosslessRequests)
    (hadmits : remote.service.Admits remote.client.nodeId remote.client.capabilities)
    (hstore : remote.service.store = true) (operationId : ClaimOperationId) (now : Nat) :
    remote.plane.claim operationId now db = remote.relayed.claim operationId now db := by
  have hcommand := claimCommand_claimRequest hadmits hstore operationId (remote.draws now)
  refine carry_atTime _ remote now (fun time htime => ?_) (fun status hstatus => ?_)
    (fun _ => rfl) (fun time => UdsJudgeControlClient.readClaim_claimResponse hl ?_) rfl
  · rw [JudgeControlService.claim, JudgeControlService.claimWith, hcommand, htime]
    rfl
  · rw [JudgeControlService.claim, JudgeControlService.claimWith, hcommand, hstatus]
    rfl
  · exact fun _ => judgeClaimTask_lease

omit [Wire] in
/-- The service asks the store for the renewal that the node would make. -/
theorem renewCommand_renewRequest
    (hadmits : remote.service.Admits remote.client.nodeId remote.client.capabilities)
    (hstore : remote.service.store = true) (lease : TaskLease) (now : Nat) :
    remote.service.renewCommand (remote.client.renewRequest lease) (remote.draws now) =
      (remote.draws now).now.map ((remote.context now).renewCommand lease) := by
  obtain ⟨⟨allowed, hallowed, -⟩, -⟩ := NodePolicy.authorize_eq_ok.mp hadmits.authorized
  have hlisted : (remote.service.nodePolicy.allowlist remote.client.nodeId).isSome :=
    Option.isSome_iff_exists.mpr ⟨allowed, hallowed⟩
  have hnode := JudgeControlService.parseAndAuthorizeNode_eq_ok.mpr ⟨rfl, hlisted⟩
  simp only [JudgeControlService.renewCommand, UdsJudgeControlClient.renewRequest,
    validateProtocolVersion, ne_eq, not_true_eq_false, refuseIf_neg, not_false_eq_true,
    reportAs_ok, ok_bind, hnode, hstore, Bool.true_eq_false, OpaqueId.parse_value, Remote.draws]
  rcases ok_or_error (UnixMillis.new now) with ⟨time, h⟩ | ⟨e, h⟩ <;> rw [h] <;> rfl

/-- **A remote renewal** is the direct one, relayed. -/
theorem remote_renew
    (hadmits : remote.service.Admits remote.client.nodeId remote.client.capabilities)
    (hstore : remote.service.store = true) (lease : TaskLease) (now : Nat) :
    remote.plane.renew lease now db = remote.relayed.renew lease now db := by
  have hcommand := renewCommand_renewRequest hadmits hstore lease now
  refine carry_atTime _ remote now (fun time htime => ?_) (fun status hstatus => ?_)
    (fun _ => rfl) (fun _ => UdsJudgeControlClient.readRenewal_renewResponse remote.service _) rfl
  · rw [JudgeControlService.renewLease, hcommand, htime]
    rfl
  · rw [JudgeControlService.renewLease, hcommand, hstatus]
    rfl

/-- The service asks the store for the submission that the node would make. -/
theorem submitCommand_submitRequest (hl : LosslessResults)
    (hadmits : remote.service.Admits remote.client.nodeId remote.client.capabilities)
    (hstore : remote.service.store = true) (operationId : ResultOperationId)
    {result : EvaluationResult} {payload : List UInt8}
    (hidentity : result.identity = EvaluationIdentity.fromRequest lease.request)
    (hencode : encodeEvaluationResult result = .ok payload) (now : Nat) :
    ∃ request, remote.client.submitRequest lease operationId result = .ok request ∧
      remote.service.submitCommand request (remote.draws now) =
        (remote.draws now).now.map
          ((remote.context now).submitCommand lease operationId result) := by
  obtain ⟨⟨allowed, hallowed, -⟩, -⟩ := NodePolicy.authorize_eq_ok.mp hadmits.authorized
  have hlisted : (remote.service.nodePolicy.allowlist remote.client.nodeId).isSome :=
    Option.isSome_iff_exists.mpr ⟨allowed, hallowed⟩
  have hnode := JudgeControlService.parseAndAuthorizeNode_eq_ok.mpr ⟨rfl, hlisted⟩
  have hevaluation : result.identity.evaluationId = lease.request.evaluationId :=
    congrArg EvaluationIdentity.evaluationId hidentity
  have hattempt : result.identity.attemptId = lease.request.attemptId :=
    congrArg EvaluationIdentity.attemptId hidentity
  have hdecode : decodeEvaluationResultDomain payload = .ok result := inverts_result hl _ _ hencode
  refine ⟨⟨clientProtocolVersion, remote.client.nodeId.value, lease.request.evaluationId.value,
    lease.request.attemptId.value, lease.leaseToken.value, operationId.value, payload⟩, ?_, ?_⟩
  · rw [UdsJudgeControlClient.submitRequest, hencode]
    rfl
  · simp only [JudgeControlService.submitCommand, validateProtocolVersion, ne_eq,
      not_true_eq_false, refuseIf_neg, not_false_eq_true, reportAs_ok, ok_bind, hnode,
      OpaqueId.parse_value, hdecode, hevaluation, hattempt, or_self, hstore, Bool.true_eq_false,
      Remote.draws]
    rcases ok_or_error (UnixMillis.new now) with ⟨time, h⟩ | ⟨e, h⟩ <;> rw [h] <;> rfl

/-- **A remote submission** of a result for the lease is the direct one, relayed. -/
theorem remote_submit (hl : LosslessResults)
    (hadmits : remote.service.Admits remote.client.nodeId remote.client.capabilities)
    (hstore : remote.service.store = true) (operationId : ResultOperationId)
    {result : EvaluationResult}
    (hidentity : result.identity = EvaluationIdentity.fromRequest lease.request) (now : Nat) :
    remote.plane.submit lease operationId result now db =
      remote.relayed.submit lease operationId result now db := by
  rcases ok_or_error (encodeEvaluationResult result) with ⟨payload, hencode⟩ | ⟨e, hencode⟩
  · obtain ⟨request, hrequest, hcommand⟩ :=
      submitCommand_submitRequest hl hadmits hstore operationId hidentity hencode now
    have hevaluation : result.identity.evaluationId = lease.request.evaluationId :=
      congrArg EvaluationIdentity.evaluationId hidentity
    simp only [Remote.plane, UdsJudgeControlClient.onChannel, hrequest, Remote.relayed, hencode]
    refine carry_atTime _ remote now (fun time htime => ?_) (fun status hstatus => ?_)
      (fun _ => rfl) (fun time => UdsJudgeControlClient.readSubmission_submitResponse ?_) rfl
    · rw [JudgeControlService.submitResult, hcommand, htime]
      rfl
    · rw [JudgeControlService.submitResult, hcommand, hstatus]
      rfl
    · exact fun _ hsnapshot => (judgeSubmitResult_evaluationId hsnapshot).trans hevaluation
  · simp only [Remote.plane, UdsJudgeControlClient.onChannel, UdsJudgeControlClient.submitRequest,
      hencode, reportAs_error, error_bind, Remote.relayed]

end Transparency
end Wire

/-! ### Negotiation -/

/-- `JudgeControl::negotiate`. -/
def JudgeControlService.negotiate (service : JudgeControlService) (request : NegotiateRequest) :
    Except Status NegotiateResponse := do
  let session ← service.negotiateRequest request
  let leaseDurationMs ← service.leaseDurationMs
  let renewAfterMs ← service.renewAfterMs
  return {
    acceptedVersion := clientProtocolVersion
    allowedCapabilities := session.capabilities.map (·.value)
    leaseDurationMs
    renewAfterMs
    noTaskBackoffMs := 500 }

/-- `UdsJudgeControlClient::connect`; `server` is what answers behind the socket, if anything
does. -/
def UdsJudgeControlClient.connectTo (socketPath : String) (nodeId : NodeId)
    (capabilities : List Capability)
    (server : Option (NegotiateRequest → Except TonicCode NegotiateResponse)) :
    Except JudgeNodeError UdsJudgeControlClient := do
  refuseIf (socketPath.toList.head? ≠ some '/' ∨ capabilities = []) .invalidConfiguration
  let negotiate ← orRefuse .unavailable server
  let response ← reportAs .incompatibleServer
    (negotiate ⟨clientProtocolVersion, nodeId.value, capabilities.map (·.value)⟩)
  connect nodeId capabilities response

theorem JudgeControlService.negotiate_eq {service : JudgeControlService} {nodeId : NodeId}
    {capabilities : List Capability} (hadmits : service.Admits nodeId capabilities) :
    service.negotiate ⟨clientProtocolVersion, nodeId.value, capabilities.map (·.value)⟩ =
      .ok (service.leasePolicy.negotiate capabilities) := by
  simp only [negotiate, negotiateRequest_admitted hadmits, ok_bind, leaseDurationMs_eq,
    renewAfterMs_eq]
  rfl

/-- A negotiated node is admitted with what it declared. -/
theorem JudgeControlService.admits_of_negotiate {service : JudgeControlService} {nodeId : NodeId}
    {capabilities : List Capability} {response : NegotiateResponse}
    (h : service.negotiate ⟨clientProtocolVersion, nodeId.value, capabilities.map (·.value)⟩ =
      .ok response) : service.Admits nodeId capabilities := by
  simp only [negotiate, bind_eq_ok] at h
  obtain ⟨session, hsession, -⟩ := h
  simp only [negotiateRequest, bind_eq_ok, reportAs_eq_ok, OpaqueId.parse_eq_ok] at hsession
  obtain ⟨_, -, node, hnode, declared, hdeclared, hsession⟩ := hsession
  obtain rfl := OpaqueId.ext hnode
  simp only [validateCapabilities, bind_eq_ok, refuseIf_eq_ok, reportAs_eq_ok, exists_const,
    List.length_map, mapM_map_ok Capability.parse_value, not_not, pure, Except.pure,
    Except.ok.injEq, exists_eq_left'] at hdeclared
  obtain ⟨hbounded, -, rfl⟩ := hdeclared
  split at hsession
  · rename_i hauthorized
    exact ⟨hauthorized, not_lt.mp hbounded⟩
  · cases hsession

/-- **Which nodes connect**: those that the policy lets declare what they declare, over an absolute
socket path, each with the duration that the policy has for its leases. -/
theorem connect_iff {service : JudgeControlService} {socketPath : String} {nodeId : NodeId}
    {capabilities : List Capability} {client : UdsJudgeControlClient} :
    UdsJudgeControlClient.connectTo socketPath nodeId capabilities
        (some fun request => translate (·.code.tonic) (service.negotiate request)) = .ok client ↔
      (socketPath.toList.head? = some '/' ∧ service.Admits nodeId capabilities ∧
        client = ⟨nodeId, capabilities, service.leasePolicy.leaseDuration, 500⟩) := by
  simp only [UdsJudgeControlClient.connectTo, bind_eq_ok, refuseIf_eq_ok, exists_const, not_or,
    not_not, orRefuse_some, Except.ok.injEq, exists_eq_left', reportAs_eq_ok, translate_eq_ok]
  constructor
  · rintro ⟨⟨habsolute, hne⟩, response, hresponse, hconnect⟩
    have hadmits := JudgeControlService.admits_of_negotiate hresponse
    rw [JudgeControlService.negotiate_eq hadmits] at hresponse
    obtain rfl := Except.ok.inj hresponse
    rw [connect_negotiate service.leasePolicy nodeId hne] at hconnect
    exact ⟨habsolute, hadmits, (Except.ok.inj hconnect).symm⟩
  · rintro ⟨habsolute, hadmits, rfl⟩
    have hne := (NodePolicy.authorize_eq_ok.mp hadmits.authorized).2.1
    exact ⟨⟨habsolute, hne⟩, _, JudgeControlService.negotiate_eq hadmits,
      connect_negotiate service.leasePolicy nodeId hne⟩

end OpenOJ
