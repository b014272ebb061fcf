import OpenOJ.Application.NodePolicy
import OpenOJ.Storage.Store

/-!
# The Judge Control service

How the control plane answers a judge node's claim. A request is negotiated first
(`negotiateRequest`): its version, its node id and its capabilities are checked, and what comes out,
a `NodeSession`, carries the policy's authorization. Only then is the store asked for a task
(`claimCommand`), under a token and at a time that the service draws itself (`Draws`).

* `validateProtocolVersion` and `validateCapabilities` are the checks of the protocol, with their
  errors (`ProtocolContractError`);
* `Status` is the answer to a refused request: `mapNodePolicyError` and `mapStoreError` say which
  code and which text each refusal has;
* `NegotiateRequest`, `ClaimRequest`, `LeasedTask` and `ClaimResponse` are the messages, with texts
  for everything that is validated on the way;
* `JudgeControlService.claim` is the handler. It answers with the lease that the store granted, or
  with no task when there is none; `JudgeControlService.claimAfterLookup` is the part of it that
  comes after the lookup of the operation id, when other calls have come between.
-/

namespace OpenOJ

open Outcome

/-! ### The protocol's checks -/

def clientProtocolVersion : String := "openoj.judge.control/v0alpha1"

/-- `MAX_CAPABILITIES` of the judge protocol. -/
def maxDeclaredCapabilities : Nat := 64

inductive ProtocolContractError where
  | unsupportedVersion
  | invalidCapabilities
  deriving DecidableEq, Repr

/-- `validate_protocol_version`. -/
def validateProtocolVersion (version : String) : Except ProtocolContractError Unit :=
  refuseIf (version ≠ clientProtocolVersion) .unsupportedVersion

/-- `validate_capabilities`. -/
def validateCapabilities (capabilities : List String) :
    Except ProtocolContractError (List Capability) := do
  refuseIf (maxDeclaredCapabilities < capabilities.length) .invalidCapabilities
  let parsed ← reportAs .invalidCapabilities (capabilities.mapM Capability.parse)
  refuseIf (¬parsed.Nodup) .invalidCapabilities
  return parsed

/-! ### Answers -/

inductive StatusCode where
  | invalidArgument
  | notFound
  | alreadyExists
  | permissionDenied
  | failedPrecondition
  | internal
  | unavailable
  deriving DecidableEq, Repr

/-- What the service answers a call that it refuses. -/
structure Status where
  code : StatusCode
  message : String
  deriving DecidableEq, Repr

/-- `map_node_policy_error`. -/
def mapNodePolicyError : NodePolicyError → Status
  | .identityDenied => ⟨.permissionDenied, "identity_denied"⟩
  | .capabilityDenied => ⟨.permissionDenied, "capability_denied"⟩
  | .invalidRenewSchedule | .duplicateNode | .invalidCapabilities =>
    ⟨.internal, "invalid_configuration"⟩

/-- `map_store_error`. -/
def mapStoreError : StoreError → Status
  | .notFound => ⟨.notFound, "evaluation_not_found"⟩
  | .noTaskAvailable => ⟨.unavailable, "no_task_available"⟩
  | .idempotencyConflict | .terminalConflict => ⟨.alreadyExists, "operation_conflict"⟩
  | .identityConflict | .leaseConflict | .staleLease => ⟨.failedPrecondition, "lease_rejected"⟩
  | .invalidTime | .invalidTransition | .incompatibleSchema | .corruptData =>
    ⟨.failedPrecondition, "state_rejected"⟩
  | .unavailable => ⟨.unavailable, "storage_unavailable"⟩
  | .immutableReferenceConflict => ⟨.internal, "storage_error"⟩

/-! ### Messages -/

/-- `NegotiateRequest`. -/
structure NegotiateRequest where
  version : String
  nodeId : String
  capabilities : List String

/-- `ClaimRequest`. -/
structure ClaimRequest where
  version : String
  nodeId : String
  claimOperationId : String
  capabilities : List String

/-- `LeasedTask`. -/
structure LeasedTask where
  evaluationId : String
  attemptId : String
  attemptNumber : Nat
  leaseToken : String
  leaseExpiresAtUnixMs : Nat
  canonicalRequest : List UInt8

/-- The outcome of a `ClaimResponse`. -/
inductive ClaimResponse where
  | leased (task : LeasedTask)
  | noTask (retryAfterMs : Nat)

/-! ### The service -/

/-- `JudgeControlService`; its clock and token source are inputs of each call. -/
structure JudgeControlService where
  store : Bool
  nodePolicy : NodePolicy
  leasePolicy : LeasePolicy

/-- What a `ControlSource` answers during one call. -/
structure Draws where
  leaseToken : Except Status LeaseToken
  now : Except Status UnixMillis

/-- A negotiated node: the policy allows it what it declared. -/
structure NodeSession (policy : NodePolicy) where
  nodeId : NodeId
  capabilities : List Capability
  authorized : policy.authorize nodeId capabilities = .ok ()

namespace JudgeControlService

/-- `negotiate_request`. -/
def negotiateRequest (service : JudgeControlService) (request : NegotiateRequest) :
    Except Status (NodeSession service.nodePolicy) := do
  reportAs ⟨.failedPrecondition, "unsupported_version"⟩ (validateProtocolVersion request.version)
  let nodeId ← reportAs ⟨.invalidArgument, "invalid_message"⟩
    (OpaqueId.parse "node_id" request.nodeId)
  let capabilities ← reportAs ⟨.invalidArgument, "capability_denied"⟩
    (validateCapabilities request.capabilities)
  match h : service.nodePolicy.authorize nodeId capabilities with
  | .ok () => return ⟨nodeId, capabilities, h⟩
  | .error e => throw (mapNodePolicyError e)

/-- What `claim` asks the store for. -/
def claimCommand (service : JudgeControlService) (request : ClaimRequest) (draws : Draws) :
    Except Status JudgeClaim := do
  let session ← service.negotiateRequest ⟨request.version, request.nodeId, request.capabilities⟩
  let operationId ← reportAs ⟨.invalidArgument, "invalid_message"⟩
    (OpaqueId.parse "claim_operation_id" request.claimOperationId)
  refuseIf (service.store = false) ⟨.unavailable, "control_plane_unavailable"⟩
  let leaseToken ← draws.leaseToken
  let now ← draws.now
  return {
    nodeId := session.nodeId
    declaredCapabilities := session.capabilities
    operationId
    leaseToken
    now
    leasePolicy := service.leasePolicy }

section Operations

variable [Wire]

/-- How `claim` reports what the store answered. -/
def claimResponse : Except StoreError TaskLease → Except Status ClaimResponse
  | .ok lease => do
    let canonicalRequest ← reportAs ⟨.internal, "stored_request_invalid"⟩
      (encodeEvaluationRequest lease.request)
    return .leased {
      evaluationId := lease.request.evaluationId.value
      attemptId := lease.request.attemptId.value
      attemptNumber := lease.request.attemptNumber
      leaseToken := lease.leaseToken.value
      leaseExpiresAtUnixMs := lease.expiresAt.value
      canonicalRequest }
  | .error .noTaskAvailable => .ok (.noTask 500)
  | .error e => .error (mapStoreError e)

/-- `claim`, where `judgeClaim` is what the store does for it. -/
def claimWith (judgeClaim : JudgeClaim → Database → Except StoreError TaskLease × Database)
    (service : JudgeControlService) (request : ClaimRequest) (draws : Draws) (db : Database) :
    Except Status ClaimResponse × Database :=
  match service.claimCommand request draws with
  | .error status => (.error status, db)
  | .ok command => (judgeClaim command db).map claimResponse id

/-- `JudgeControl::claim`. -/
def claim (service : JudgeControlService) (request : ClaimRequest) (draws : Draws)
    (locked : AttemptId → Bool) (db : Database) : Except Status ClaimResponse × Database :=
  service.claimWith (fun command => judgeClaimTask command locked) request draws db

/-- The rest of a `claim` whose replay lookup has found nothing, at this or an earlier time. -/
def claimAfterLookup (service : JudgeControlService) (request : ClaimRequest) (draws : Draws)
    (locked : AttemptId → Bool) (db : Database) : Except Status ClaimResponse × Database :=
  service.claimWith (fun command => judgeClaimWrite command locked) request draws db

end Operations
end JudgeControlService
end OpenOJ
