import OpenOJ.Protocol.ResultReading
import OpenOJ.Service.ControlPlane

/-!
# Renewals and submissions at the Judge Control service

A node renews and submits under a lease: it names itself, the evaluation, the attempt and the token
in texts, and what the store is asked is read off them. Unlike a claim, neither needs the
capabilities of the node, only that it is listed (`parseAndAuthorizeNode`).

* `JudgeControlService.renewLease`: the times of the policy are those of the service
  (`renewAfterMs`, `leaseDurationMs`), and the answer is to go on until a time or to cancel
  (`renewResponse`);
* `JudgeControlService.submitResult`: the result comes as the bytes of a message, which are decoded
  and have to name the evaluation and the attempt of the request.

`renewCommand_eq_ok` and `submitCommand_eq_ok` say exactly which requests get as far as the store,
and with which command.
-/

namespace OpenOJ

open Outcome

/-! ### Messages -/

/-- `RenewLeaseRequest`. -/
structure RenewLeaseRequest where
  version : String
  nodeId : String
  evaluationId : String
  attemptId : String
  leaseToken : String

/-- The directive of a `RenewLeaseResponse`. -/
inductive RenewLeaseResponse where
  | continueLease (leaseExpiresAtUnixMs renewAfterMs : Nat)
  | cancelLease

/-- `SubmitResultRequest`. -/
structure SubmitResultRequest where
  version : String
  nodeId : String
  evaluationId : String
  attemptId : String
  leaseToken : String
  resultOperationId : String
  canonicalResult : List UInt8

/-- The `EvaluationSnapshot` of a `SubmitResultResponse`. -/
structure SubmittedSnapshot where
  evaluationId : String
  state : String
  currentAttemptNumber : Nat

namespace JudgeControlService

variable {service : JudgeControlService} {draws : Draws}

/-! ### The node -/

/-- `parse_and_authorize_node`. -/
def parseAndAuthorizeNode (policy : NodePolicy) (value : String) : Except Status NodeId := do
  let nodeId ← reportAs ⟨.invalidArgument, "invalid_message"⟩ (OpaqueId.parse "node_id" value)
  translate mapNodePolicyError (policy.authorizeIdentity nodeId)
  return nodeId

theorem parseAndAuthorizeNode_eq_ok {policy : NodePolicy} {value : String} {nodeId : NodeId} :
    parseAndAuthorizeNode policy value = .ok nodeId ↔
      nodeId.value = value ∧ (policy.allowlist nodeId).isSome := by
  simp only [parseAndAuthorizeNode, bind_eq_ok, reportAs_eq_ok, translate_eq_ok,
    NodePolicy.authorizeIdentity_eq_ok, OpaqueId.parse_eq_ok, exists_const, pure, Except.pure,
    Except.ok.injEq]
  constructor
  · rintro ⟨_, hvalue, hlisted, rfl⟩
    exact ⟨hvalue, hlisted⟩
  · rintro ⟨hvalue, hlisted⟩
    exact ⟨nodeId, hvalue, hlisted, rfl⟩

theorem validateProtocolVersion_eq_ok {version : String} {u : Unit} :
    validateProtocolVersion version = .ok u ↔ version = clientProtocolVersion := by
  rw [validateProtocolVersion, refuseIf_eq_ok, not_not]

/-! ### Renewing -/

/-- `renew_after_ms`. -/
def renewAfterMs (service : JudgeControlService) : Except Status Nat :=
  orRefuse ⟨.internal, "invalid_configuration"⟩ (toU32 service.leasePolicy.renewAfter.value)

/-- `lease_duration_ms`. -/
def leaseDurationMs (service : JudgeControlService) : Except Status Nat :=
  orRefuse ⟨.internal, "invalid_configuration"⟩ (toU32 service.leasePolicy.leaseDuration.value)

/-- Every duration a lease can have is an unsigned 32-bit number of milliseconds. -/
theorem toU32_leaseDuration (duration : LeaseDuration) :
    toU32 duration.value = some duration.value := by
  have hle : duration.value ≤ maxLeaseDurationMs := duration.valid.2
  have hfits : (0 : Int) ≤ duration.value ∧ (duration.value : Int) ≤ u32Max := by
    unfold maxLeaseDurationMs at hle
    unfold u32Max
    omega
  rw [toU32, if_pos hfits, Int.toNat_natCast]

@[simp] theorem renewAfterMs_eq (service : JudgeControlService) :
    service.renewAfterMs = .ok service.leasePolicy.renewAfter.value := by
  rw [renewAfterMs, toU32_leaseDuration, orRefuse_some]

@[simp] theorem leaseDurationMs_eq (service : JudgeControlService) :
    service.leaseDurationMs = .ok service.leasePolicy.leaseDuration.value := by
  rw [leaseDurationMs, toU32_leaseDuration, orRefuse_some]

/-- What `renew_lease` asks the store for. -/
def renewCommand (service : JudgeControlService) (request : RenewLeaseRequest) (draws : Draws) :
    Except Status JudgeRenew := do
  reportAs ⟨.failedPrecondition, "unsupported_version"⟩ (validateProtocolVersion request.version)
  let nodeId ← parseAndAuthorizeNode service.nodePolicy request.nodeId
  refuseIf (service.store = false) ⟨.unavailable, "control_plane_unavailable"⟩
  let evaluationId ← reportAs ⟨.invalidArgument, "invalid_message"⟩
    (OpaqueId.parse "evaluation_id" request.evaluationId)
  let attemptId ← reportAs ⟨.invalidArgument, "invalid_message"⟩
    (OpaqueId.parse "attempt_id" request.attemptId)
  let leaseToken ← reportAs ⟨.invalidArgument, "invalid_message"⟩
    (OpaqueId.parse "lease_token" request.leaseToken)
  let now ← draws.now
  return { nodeId, evaluationId, attemptId, leaseToken, now, leasePolicy := service.leasePolicy }

/-- How `renew_lease` reports what the store answered. -/
def renewResponse (service : JudgeControlService) :
    Except StoreError JudgeRenewDirective → Except Status RenewLeaseResponse
  | .ok (.continue expiresAt) => do
    let renewAfterMs ← service.renewAfterMs
    return .continueLease expiresAt.value renewAfterMs
  | .ok .cancel => .ok .cancelLease
  | .error e => .error (mapStoreError e)

/-- `JudgeControl::renew_lease`. -/
def renewLease (service : JudgeControlService) (request : RenewLeaseRequest) (draws : Draws)
    (db : Database) : Except Status RenewLeaseResponse × Database :=
  match service.renewCommand request draws with
  | .error status => (.error status, db)
  | .ok command => (judgeRenewLease command db).map service.renewResponse id

/-- **Which renewals reach the store**: those of a listed node, in the service's version and at a
time its clock can tell; the command says what the request says. -/
theorem renewCommand_eq_ok {request : RenewLeaseRequest} {command : JudgeRenew} :
    service.renewCommand request draws = .ok command ↔
      request = ⟨clientProtocolVersion, command.nodeId.value, command.evaluationId.value,
        command.attemptId.value, command.leaseToken.value⟩ ∧
      (service.nodePolicy.allowlist command.nodeId).isSome ∧ service.store = true ∧
      draws.now = .ok command.now ∧ command.leasePolicy = service.leasePolicy := by
  obtain ⟨version, node, evaluation, attempt, token⟩ := request
  simp only [renewCommand, bind_eq_ok, reportAs_eq_ok, validateProtocolVersion_eq_ok,
    parseAndAuthorizeNode_eq_ok, refuseIf_eq_ok, OpaqueId.parse_eq_ok, exists_const, pure,
    Except.pure, Except.ok.injEq, Bool.not_eq_false, RenewLeaseRequest.mk.injEq]
  constructor
  · rintro ⟨hversion, nodeId, ⟨hnode, hlisted⟩, hstore, evaluationId, hevaluation, attemptId,
      hattempt, leaseToken, htoken, now, hnow, rfl⟩
    exact ⟨⟨hversion, hnode.symm, hevaluation.symm, hattempt.symm, htoken.symm⟩, hlisted, hstore,
      hnow, rfl⟩
  · rintro ⟨⟨hversion, hnode, hevaluation, hattempt, htoken⟩, hlisted, hstore, hnow, hpolicy⟩
    refine ⟨hversion, _, ⟨hnode.symm, hlisted⟩, hstore, _, hevaluation.symm, _, hattempt.symm, _,
      htoken.symm, _, hnow, ?_⟩
    rw [← hpolicy]

/-! ### Submitting -/

section Submission

variable [Wire]

/-- What `submit_result` asks the store for. -/
def submitCommand (service : JudgeControlService) (request : SubmitResultRequest)
    (draws : Draws) : Except Status JudgeSubmitResult := do
  reportAs ⟨.failedPrecondition, "unsupported_version"⟩ (validateProtocolVersion request.version)
  let nodeId ← parseAndAuthorizeNode service.nodePolicy request.nodeId
  let evaluationId ← reportAs ⟨.invalidArgument, "invalid_message"⟩
    (OpaqueId.parse "evaluation_id" request.evaluationId)
  let attemptId ← reportAs ⟨.invalidArgument, "invalid_message"⟩
    (OpaqueId.parse "attempt_id" request.attemptId)
  let result ← reportAs ⟨.invalidArgument, "invalid_canonical_result"⟩
    (decodeEvaluationResultDomain request.canonicalResult)
  refuseIf (result.identity.evaluationId ≠ evaluationId ∨ result.identity.attemptId ≠ attemptId)
    ⟨.invalidArgument, "result_identity_mismatch"⟩
  refuseIf (service.store = false) ⟨.unavailable, "control_plane_unavailable"⟩
  let operationId ← reportAs ⟨.invalidArgument, "invalid_message"⟩
    (OpaqueId.parse "result_operation_id" request.resultOperationId)
  let leaseToken ← reportAs ⟨.invalidArgument, "invalid_message"⟩
    (OpaqueId.parse "lease_token" request.leaseToken)
  let now ← draws.now
  return { nodeId, operationId, leaseToken, result, now }

/-- How `submit_result` reports what the store answered. -/
def submitResponse : Except StoreError EvaluationSnapshot → Except Status SubmittedSnapshot
  | .ok snapshot => .ok {
      evaluationId := snapshot.evaluationId.value
      state := snapshot.state.asStr
      currentAttemptNumber := snapshot.attemptNumber }
  | .error e => .error (mapStoreError e)

/-- `JudgeControl::submit_result`. -/
def submitResult (service : JudgeControlService) (request : SubmitResultRequest) (draws : Draws)
    (db : Database) : Except Status SubmittedSnapshot × Database :=
  match service.submitCommand request draws with
  | .error status => (.error status, db)
  | .ok command => (judgeSubmitResult command db).map submitResponse id

/-- **Which submissions reach the store**: those of a listed node whose result is a canonical one
of the evaluation and the attempt that the request names. -/
theorem submitCommand_eq_ok {request : SubmitResultRequest} {command : JudgeSubmitResult} :
    service.submitCommand request draws = .ok command ↔
      request = ⟨clientProtocolVersion, command.nodeId.value,
        command.result.identity.evaluationId.value, command.result.identity.attemptId.value,
        command.leaseToken.value, command.operationId.value, request.canonicalResult⟩ ∧
      (service.nodePolicy.allowlist command.nodeId).isSome ∧
      decodeEvaluationResultDomain request.canonicalResult = .ok command.result ∧
      service.store = true ∧ draws.now = .ok command.now := by
  obtain ⟨version, node, evaluation, attempt, token, operation, payload⟩ := request
  simp only [submitCommand, bind_eq_ok, reportAs_eq_ok, validateProtocolVersion_eq_ok,
    parseAndAuthorizeNode_eq_ok, refuseIf_eq_ok, OpaqueId.parse_eq_ok, exists_const, pure,
    Except.pure, Except.ok.injEq, Bool.not_eq_false, not_or, not_not,
    SubmitResultRequest.mk.injEq, and_true]
  constructor
  · rintro ⟨hversion, nodeId, ⟨hnode, hlisted⟩, evaluationId, hevaluation, attemptId, hattempt,
      result, hdecode, ⟨rfl, rfl⟩, hstore, operationId, hoperation, leaseToken, htoken, now, hnow,
      rfl⟩
    exact ⟨⟨hversion, hnode.symm, hevaluation.symm, hattempt.symm, htoken.symm, hoperation.symm⟩,
      hlisted, hdecode, hstore, hnow⟩
  · rintro ⟨⟨hversion, hnode, hevaluation, hattempt, htoken, hoperation⟩, hlisted, hdecode, hstore,
      hnow⟩
    exact ⟨hversion, _, ⟨hnode.symm, hlisted⟩, _, hevaluation.symm, _, hattempt.symm, _, hdecode,
      ⟨rfl, rfl⟩, hstore, _, hoperation.symm, _, htoken.symm, _, hnow, rfl⟩

end Submission
end JudgeControlService
end OpenOJ
