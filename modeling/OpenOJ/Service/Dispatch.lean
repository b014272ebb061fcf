import OpenOJ.Service.ControlPlane
import OpenOJ.Storage.Creation

/-!
# Capability-safe dispatch

A lease reaches a judge node on one of two paths. A fresh claim compares the task's required
capabilities with the declared ones; a replay compares nothing and answers from the attempt that
recorded the operation id. It is safe because of what is recorded: an attempt with an operation id
belongs to a node whose allowlist covers its request (`Dispatched`), and no other call of the store
records one.

The service is a machine (`JudgeControlService.machine`) whose events are messages of nodes and all
other calls of the store, and in which the lookup of a claim and its write may be apart.

* `Dispatched.next`: leases stay allowed under every call whose recorded claims are (`AllowedCall`);
* `event_cases`: an event of the service is no call of the store, or an allowed one;
* `judgeClaim_allowed`: both paths lease what is allowed;
* `capability_safe_dispatch`: so after every run, whatever claim comes next, a lease goes to a node
  to which the policy allows what the leased request asks for (`JudgeControlService.Covers`), and a
  node that may not declare what it declares is refused and changes nothing (`CapabilitySafe`).
-/

namespace OpenOJ

open Outcome

/-! ### The service as a machine -/

/-- The call records the operation id of a judge node's claim. Only the Judge Control service
makes such calls. -/
def Operation.isJudgeClaim : Operation → Bool
  | .judgeClaimTask _ _ => true
  | .claimTaskWithCapabilities _ operationId _ _ => operationId.isSome
  | _ => false

/-- A claim request as the store sees it: what the request says, what the clock and the token
source answer, which task rows are held, and whether the replay lookup came earlier in the run
and found nothing. -/
structure ClaimCall where
  request : ClaimRequest
  draws : Draws
  locked : AttemptId → Bool
  lookedUp : Bool

/-- One event of a run: a claim request or any other call of the store. -/
inductive ServiceEvent where
  | claim (call : ClaimCall)
  | other (operation : Operation) (h : operation.isJudgeClaim = false)

/-- What an event is answered. -/
inductive ServiceAnswer where
  | claim (answer : Except Status ClaimResponse)
  | other (answer : Answer)

section Machine

variable [Wire]

/-- What the service answers a claim. -/
def JudgeControlService.serve (service : JudgeControlService) (call : ClaimCall) (db : Database) :
    Except Status ClaimResponse × Database :=
  if call.lookedUp then service.claimAfterLookup call.request call.draws call.locked db
  else service.claim call.request call.draws call.locked db

/-- The service over the store it was started with. -/
def JudgeControlService.machine (service : JudgeControlService) :
    Machine Database ServiceEvent ServiceAnswer where
  start := .empty
  step
    | .claim call, db => (service.serve call db).map .claim id
    | .other operation _, db => (perform operation db).map .other id

variable {service : JudgeControlService} {request : ClaimRequest} {draws : Draws}
  {locked : AttemptId → Bool} {db : Database}

/-- Any other event is a call of the store. -/
theorem next_other {operation : Operation}
    (h : operation.isJudgeClaim = false) :
    service.machine.next (.other operation h) db = store.next operation db := rfl

/-- What the store does for a claim. -/
def ClaimCall.judgeClaim (call : ClaimCall) (command : JudgeClaim) (db : Database) :
    Except StoreError TaskLease × Database :=
  if call.lookedUp then judgeClaimWrite command call.locked db
  else judgeClaimTask command call.locked db

theorem JudgeControlService.serve_eq (call : ClaimCall) :
    service.serve call db = service.claimWith call.judgeClaim call.request call.draws db := by
  obtain ⟨request, draws, locked, lookedUp⟩ := call
  cases lookedUp <;> rfl

/-! ### Negotiation -/

/-- What the policy has to say of a claim request: it names a listed node, and declares only
capabilities of the node's allowlist. -/
def JudgeControlService.Permits (service : JudgeControlService) (request : ClaimRequest) : Prop :=
  ∃ (nodeId : NodeId) (capabilities : List Capability), nodeId.value = request.nodeId ∧
    capabilities.map (·.value) = request.capabilities ∧
      service.nodePolicy.Allows nodeId capabilities

omit [Wire] in
private theorem mapM_parse_value {texts : List String} {capabilities : List Capability}
    (h : texts.mapM Capability.parse = .ok capabilities) :
    capabilities.map (·.value) = texts := by
  induction texts generalizing capabilities with
  | nil =>
    obtain rfl := Except.ok.inj h
    rfl
  | cons text texts ih =>
    simp only [List.mapM_cons, bind_eq_ok] at h
    obtain ⟨capability, hparse, rest, hrest, heq⟩ := h
    obtain rfl := Except.ok.inj heq
    rw [List.map_cons, ih hrest, Capability.value_of_parse hparse]

omit [Wire] in
/-- A negotiated session has the node and the capabilities of its request. -/
private theorem negotiateRequest_eq_ok {request : NegotiateRequest}
    {session : NodeSession service.nodePolicy}
    (h : service.negotiateRequest request = .ok session) :
    session.nodeId.value = request.nodeId ∧
      session.capabilities.map (·.value) = request.capabilities := by
  simp only [JudgeControlService.negotiateRequest, bind_eq_ok, reportAs_eq_ok] at h
  obtain ⟨_, -, nodeId, hnode, capabilities, hcapabilities, h⟩ := h
  split at h
  · obtain rfl := Except.ok.inj h
    refine ⟨OpaqueId.value_of_parse hnode, ?_⟩
    simp only [validateCapabilities, bind_eq_ok, reportAs_eq_ok] at hcapabilities
    obtain ⟨_, -, parsed, hparsed, _, -, heq⟩ := hcapabilities
    obtain rfl := Except.ok.inj heq
    exact mapM_parse_value hparsed
  · cases h

omit [Wire] in
/-- The command of a claim is that of a permitted node. -/
private theorem claimCommand_eq_ok {command : JudgeClaim}
    (h : service.claimCommand request draws = .ok command) :
    command.nodeId.value = request.nodeId ∧
      command.declaredCapabilities.map (·.value) = request.capabilities ∧
        service.nodePolicy.Allows command.nodeId command.declaredCapabilities := by
  simp only [JudgeControlService.claimCommand, bind_eq_ok] at h
  obtain ⟨session, hsession, operationId, -, _, -, leaseToken, -, now, -, heq⟩ := h
  obtain rfl := Except.ok.inj heq
  obtain ⟨hnode, hcapabilities⟩ := negotiateRequest_eq_ok hsession
  exact ⟨hnode, hcapabilities, (NodePolicy.authorize_eq_ok.mp session.authorized).1⟩

/-- A claim is refused before the store is asked, or the store is asked with the command of a
permitted node. -/
theorem serve_cases (service : JudgeControlService) (call : ClaimCall) (db : Database) :
    (∃ status, service.serve call db = (.error status, db)) ∨
      ∃ command : JudgeClaim, command.nodeId.value = call.request.nodeId ∧
        service.Permits call.request ∧
          service.nodePolicy.Allows command.nodeId command.declaredCapabilities ∧
            service.serve call db = (JudgeControlService.claimResponse
              (call.judgeClaim command db).1, (call.judgeClaim command db).2) := by
  rw [JudgeControlService.serve_eq]
  unfold JudgeControlService.claimWith
  rcases ok_or_error (service.claimCommand call.request call.draws) with
    ⟨command, hok⟩ | ⟨status, herror⟩
  · obtain ⟨hnode, hcapabilities, hallows⟩ := claimCommand_eq_ok hok
    rw [hok]
    exact .inr ⟨command, hnode, ⟨_, _, hnode, hcapabilities, hallows⟩, hallows, rfl⟩
  · rw [herror]
    exact .inl ⟨status, rfl⟩

/-! ### The invariant -/

/-- An attempt with a recorded operation id belongs to a node whose allowlist covers its
request. -/
def Dispatched (policy : NodePolicy) (db : Database) : Prop :=
  ∀ k a nodeId request, db.attempts.find? k = some a → a.claimOperationId.isSome →
    a.nodeId = some nodeId → decodeEvaluationRequest a.requestPayload = .ok request →
      policy.Allows nodeId request.requiredCapabilities

/-- The claims that a call records an operation id with are allowed. -/
def AllowedCall (policy : NodePolicy) (db : Database) (op : Operation) : Prop :=
  ∀ command operationId lease, op.claim? db = some (command, some operationId) →
    Grants db op lease → policy.Allows lease.nodeId lease.request.requiredCapabilities

theorem Dispatched.empty (policy : NodePolicy) : Dispatched policy .empty := by
  intro k a nodeId request ha
  cases ha

/-- The request of a granted lease is the stored one. -/
private theorem Grants.decode (hc : Coupled db) {op : Operation} {lease : TaskLease}
    (h : Grants db op lease) :
    ∃ a, db.attempts.find? lease.request.attemptId = some a ∧
      decodeEvaluationRequest a.requestPayload = .ok lease.request := by
  have hperformed := performed hc op
  generalize store.next op db = db' at hperformed
  cases hperformed with
  | idle hclaim => exact absurd h (hclaim lease)
  | created => exact absurd h (not_grants_of rfl lease)
  | claimed hclaim hanswer hgranted h' =>
    obtain rfl := h.unique ⟨by rw [hclaim]; rfl, hanswer⟩
    exact ⟨_, (hgranted.names.2.1.trans h'.triple.attemptId) ▸ h'.triple.attempt, hgranted.request⟩
  | renewed => exact absurd h (not_grants_of rfl lease)
  | recovered hop => exact absurd h (not_grants_of (Operation.not_claim_of_recovery hop) lease)
  | submitted hop => exact absurd h (not_grants_of (Operation.not_claim_of_submission hop) lease)
  | cancelled => exact absurd h (not_grants_of rfl lease)

/-- **Leases stay allowed** under every call whose recorded claims are. -/
theorem Dispatched.next {policy : NodePolicy} (hc : Coupled db) (hd : Dispatched policy db)
    {op : Operation} (hop : AllowedCall policy db op) :
    Dispatched policy (store.next op db) := by
  intro k a' nodeId request ha' hrecorded hnode hdecode
  cases ha : db.attempts.find? k with
  | none =>
    -- a new attempt has no operation id yet
    have hqueued := attempt_new hc op ha ha'
    have htidy := (hc.effects (performed hc op).effects).tidy k a' ha'
    rw [(htidy.queued hqueued).2.2.2] at hrecorded
    cases hrecorded
  | some a =>
    obtain ⟨a'', ha'', hstep⟩ := attempt_step hc op ha
    obtain rfl := Option.some.inj (ha''.symm.trans ha')
    cases hstep with
    | kept => exact hd k a nodeId request ha hrecorded hnode hdecode
    | @claimed command operationId lease hclaim hgrant hid =>
      obtain ⟨b, hb, hrequest⟩ := hgrant.decode hc
      obtain rfl : a.attemptId = k := Table.key_of_find? ha
      obtain rfl : b = a := Option.some.inj ((hid ▸ hb).symm.trans ha)
      obtain rfl := Except.ok.inj (hrequest.symm.trans hdecode)
      obtain rfl := Option.some.inj hnode
      obtain ⟨operationId, rfl⟩ := Option.isSome_iff_exists.mp hrecorded
      exact hop _ _ _ hclaim hgrant
    | renewed => exact hd k a nodeId request ha hrecorded hnode hdecode
    | ended => exact hd k a nodeId request ha hrecorded hnode hdecode

/-! ### The two paths of a lease -/

/-- A fresh claim compares: the task it leases requires no more than was declared. -/
theorem judgeClaimWrite_subset (hc : Coupled db) (hg : Legible db) {command : JudgeClaim}
    {lease : TaskLease} (h : (judgeClaimWrite command locked db).1 = .ok lease) :
    lease.nodeId = command.nodeId ∧
      lease.request.requiredCapabilities ⊆ command.declaredCapabilities := by
  unfold judgeClaimWrite claimTaskWithCapabilities at h
  rcases transact_cases (claimTransaction command.claimTask (some command.operationId)
    (some (command.declaredCapabilities.map (·.value))) locked db) (fun lease _ => .ok lease) db
    with ⟨e, -, heq⟩ | ⟨lease', db', hok, heq⟩
  · rw [heq] at h
    cases h
  · rw [heq] at h
    obtain rfl : lease' = lease := Except.ok.inj h
    obtain ⟨e, a, t, hnext, hgranted, -⟩ := claimTransaction_spec hc.linked hok
    obtain ⟨htask, hattempt, -, -, -, -, -, hdeclares, -⟩ :=
      mem_claimable.mp (List.argmin_mem hnext)
    obtain ⟨request, hdecode, -, hcapabilities⟩ := hg _ a hattempt
    obtain rfl := Except.ok.inj (hgranted.request.symm.trans hdecode)
    refine ⟨hgranted.nodeId, fun capability hmem => ?_⟩
    simp only [declares, Option.all_some, List.all_eq_true, List.contains_iff_mem] at hdeclares
    have hvalue := hdeclares capability.value
      (by rw [hcapabilities t htask]; exact List.mem_map_of_mem hmem)
    obtain ⟨declared, hdeclared, heq⟩ := List.mem_map.mp hvalue
    exact Capability.ext heq ▸ hdeclared

/-- A replay does not compare, but the attempt it answers from is an allowed one. -/
theorem claimReplay_allowed {policy : NodePolicy} (hd : Dispatched policy db)
    {command : JudgeClaim} {lease : TaskLease} (h : claimReplay command db = .ok (some lease)) :
    policy.Allows command.nodeId lease.request.requiredCapabilities := by
  unfold claimReplay at h
  split at h
  · cases h
  · rename_i row hrow
    simp only [bind_eq_ok, orRefuse_eq_ok, refuseIf_eq_ok, reportAs_eq_ok, not_not] at h
    obtain ⟨nodeId, hnode, _, rfl, _, -, _, -, _, -, request, hdecode, _, -, _, -, heq⟩ := h
    obtain rfl := Option.some.inj (Except.ok.inj heq)
    have hrecorded : row.claimOperationId = some command.operationId := by
      simpa using List.find?_some hrow
    exact hd _ row _ request (Table.mem_rows.mp (List.mem_of_find?_eq_some hrow))
      (by rw [hrecorded]; rfl) hnode hdecode

/-! ### Every run -/

/-- Only a judge node's claim records an operation id. -/
private theorem allowedCall_other {policy : NodePolicy} {op : Operation}
    (h : op.isJudgeClaim = false) : AllowedCall policy db op := by
  intro command operationId lease hclaim
  cases op <;> simp_all [Operation.claim?, Operation.isJudgeClaim]

/-- A call that answers a fresh claim by a node for allowed capabilities is an allowed one. -/
private theorem allowedCall_write {policy : NodePolicy} (hc : Coupled db) (hg : Legible db)
    {command : JudgeClaim} (h : policy.Allows command.nodeId command.declaredCapabilities)
    {op : Operation} (locked : AttemptId → Bool) (hop : (op.claim? db).isSome →
      store.answer op db = .lease (judgeClaimWrite command locked db).1) :
    AllowedCall policy db op := by
  intro _ _ lease _ hgrant
  have hanswer := (hop hgrant.1).symm.trans hgrant.2
  obtain ⟨hnode, hsubset⟩ := judgeClaimWrite_subset hc hg (Answer.lease.inj hanswer)
  exact hnode ▸ h.subset hsubset

/-- What the store does for a permitted claim is one allowed call of it. -/
private theorem exists_call {policy : NodePolicy} (hc : Coupled db) (hg : Legible db)
    {command : JudgeClaim} (h : policy.Allows command.nodeId command.declaredCapabilities)
    (call : ClaimCall) :
    ∃ op, store.next op db = (call.judgeClaim command db).2 ∧ AllowedCall policy db op := by
  obtain ⟨request, draws, locked, _ | _⟩ := call
  · refine ⟨.judgeClaimTask command locked, by simp [Machine.next, store, perform,
      ClaimCall.judgeClaim], ?_⟩
    refine allowedCall_write hc hg h locked fun hclaim => ?_
    have hreplay : claimReplay command db = .ok none := by
      simp only [Operation.claim?] at hclaim
      split at hclaim
      · assumption
      · cases hclaim
    simp [Machine.answer, store, perform, judgeClaimTask, hreplay]
  · exact ⟨.claimTaskWithCapabilities command.claimTask (some command.operationId)
      (some (command.declaredCapabilities.map (·.value))) locked,
      by simp [Machine.next, store, perform, judgeClaimWrite, ClaimCall.judgeClaim],
      allowedCall_write hc hg h locked fun _ => by
        simp [Machine.answer, store, perform, judgeClaimWrite]⟩

/-- An event leaves the database as it was, or makes one allowed call of the store. -/
theorem event_cases (hc : Coupled db) (hg : Legible db) (event : ServiceEvent) :
    service.machine.next event db = db ∨ ∃ op, service.machine.next event db = store.next op db ∧
      AllowedCall service.nodePolicy db op := by
  cases event with
  | claim call =>
    have hnext : service.machine.next (.claim call) db = (service.serve call db).2 := rfl
    rw [hnext]
    rcases serve_cases service call db with ⟨status, heq⟩ | ⟨command, -, -, hallows, heq⟩
    · exact .inl (congrArg Prod.snd heq)
    · obtain ⟨op, hop, hallowed⟩ := exists_call hc hg hallows call
      exact .inr ⟨op, (congrArg Prod.snd heq).trans hop.symm, hallowed⟩
  | other operation h =>
    exact .inr ⟨operation, next_other h, allowedCall_other h⟩

/-- Every run of the service is one of the store, and its leases are allowed. -/
theorem dispatched_of_reachable (hl : LosslessRequests) (hr : service.machine.Reachable db) :
    store.Reachable db ∧ Dispatched service.nodePolicy db := by
  refine Machine.Reachable.induction (m := service.machine)
    (P := fun db => store.Reachable db ∧ Dispatched service.nodePolicy db)
    ⟨store.reachable_start, .empty _⟩ (fun db event _ h => ?_) hr
  obtain ⟨hstore, hd⟩ := h
  have hc := coupled_of_reachable hstore
  rcases event_cases hc (legible_of_reachable hl hstore) event with heq | ⟨op, heq, hop⟩
  · rw [heq]
    exact ⟨hstore, hd⟩
  · rw [heq]
    exact ⟨hstore.next op, hd.next hc hop⟩

/-- A store that any other call has just left is one that the service can be in. -/
private theorem reachable_other {operation : Operation} (h : operation.isJudgeClaim = false)
    (hrun : store.run [operation] = db) : service.machine.Reachable db := by
  have hr := service.machine.reachable_start.next (.other operation h)
  rw [next_other] at hr
  exact hrun ▸ hr

/-! ### Dispatch -/

/-- The task carries the text of a request that requires only capabilities of the allowlist of
the node that the claim names. -/
def JudgeControlService.Covers (service : JudgeControlService) (request : ClaimRequest)
    (task : LeasedTask) : Prop :=
  ∃ (nodeId : NodeId) (required : EvaluationRequest), nodeId.value = request.nodeId ∧
    decodeEvaluationRequest task.canonicalRequest = .ok required ∧
      service.nodePolicy.Allows nodeId required.requiredCapabilities

/-- Dispatch in a state: what is leased to a node is covered by its allowlist, and a request
that the policy does not permit is refused and changes nothing. -/
structure CapabilitySafe (service : JudgeControlService) (db : Database) : Prop where
  leased : ∀ call task, service.machine.answer (.claim call) db = .claim (.ok (.leased task)) →
    service.Covers call.request task
  denied : ∀ call, ¬service.Permits call.request →
    (∃ status, service.machine.answer (.claim call) db = .claim (.error status)) ∧
      service.machine.next (.claim call) db = db

/-- A lease is reported with the text of its request. -/
private theorem claimResponse_leased {answer : Except StoreError TaskLease} {task : LeasedTask}
    (h : JudgeControlService.claimResponse answer = .ok (.leased task)) :
    ∃ lease, answer = .ok lease ∧
      encodeEvaluationRequest lease.request = .ok task.canonicalRequest := by
  rcases ok_or_error answer with ⟨lease, rfl⟩ | ⟨e, rfl⟩
  · simp only [JudgeControlService.claimResponse, bind_eq_ok, reportAs_eq_ok] at h
    obtain ⟨payload, hpayload, heq⟩ := h
    obtain rfl := ClaimResponse.leased.inj (Except.ok.inj heq)
    exact ⟨lease, rfl, hpayload⟩
  · cases e <;> cases h

/-- **Both paths lease what is allowed.** -/
theorem judgeClaim_allowed {policy : NodePolicy} (hc : Coupled db) (hg : Legible db)
    (hd : Dispatched policy db) {call : ClaimCall} {command : JudgeClaim} {lease : TaskLease}
    (hcommand : policy.Allows command.nodeId command.declaredCapabilities)
    (h : (call.judgeClaim command db).1 = .ok lease) :
    policy.Allows command.nodeId lease.request.requiredCapabilities := by
  have hwrite : (judgeClaimWrite command call.locked db).1 = .ok lease →
      policy.Allows command.nodeId lease.request.requiredCapabilities :=
    fun h => hcommand.subset (judgeClaimWrite_subset hc hg h).2
  unfold ClaimCall.judgeClaim at h
  split at h
  · exact hwrite h
  · unfold judgeClaimTask at h
    split at h
    · cases h
    · rename_i hreplay
      obtain rfl := Except.ok.inj h
      exact claimReplay_allowed hd hreplay
    · exact hwrite h

/-- **Capability-safe dispatch**, after every run. -/
theorem capability_safe_dispatch (hl : LosslessRequests) (hr : service.machine.Reachable db) :
    CapabilitySafe service db := by
  obtain ⟨hstore, hd⟩ := dispatched_of_reachable hl hr
  have hanswer : ∀ call, service.machine.answer (.claim call) db =
      .claim (service.serve call db).1 := fun _ => rfl
  have hnext : ∀ call, service.machine.next (.claim call) db = (service.serve call db).2 :=
    fun _ => rfl
  refine ⟨fun call task h => ?_, fun call hnot => ?_⟩
  · rw [hanswer] at h
    rcases serve_cases service call db with ⟨status, heq⟩ | ⟨command, hnode, -, hallows, heq⟩
    · rw [heq] at h
      cases h
    · rw [heq] at h
      obtain ⟨lease, hlease, hpayload⟩ := claimResponse_leased (ServiceAnswer.claim.inj h)
      exact ⟨command.nodeId, lease.request, hnode, decode_of_encode hl hpayload,
        judgeClaim_allowed (coupled_of_reachable hstore) (legible_of_reachable hl hstore) hd
          hallows hlease⟩
  · rw [hanswer, hnext]
    rcases serve_cases service call db with ⟨status, heq⟩ | ⟨_, -, hpermits, -⟩
    · exact ⟨⟨status, congrArg (fun answer => ServiceAnswer.claim answer.1) heq⟩,
        congrArg Prod.snd heq⟩
    · exact absurd hpermits hnot

end Machine

section Json

attribute [local instance] jsonWire

/-- A deployment that lists one node with the fixture's capability. -/
def fixtureService : JudgeControlService where
  store := true
  nodePolicy := ⟨[(fixtureClaim.nodeId, fixtureRequest.requiredCapabilities)], by decide +kernel,
    by decide +kernel⟩
  leasePolicy := fixtureLeasePolicy

/-- The listed node's claim of the fixture. -/
def fixtureCall : ClaimCall where
  request := ⟨clientProtocolVersion, "node_01", "claim_01", ["algorithm.batch"]⟩
  draws := ⟨.ok fixtureClaim.leaseToken, .ok fixtureClaim.now⟩
  locked _ := false
  lookedUp := false

/-- The fixture's evaluation, once it is created, and a permitted claim of it. -/
theorem capability_safe_dispatch_fixture :
    fixtureService.Permits fixtureCall.request ∧ ∃ db a, fixtureService.machine.Reachable db ∧
      db.attempts.find? fixtureRequest.attemptId = some a ∧ CapabilitySafe fixtureService db := by
  refine ⟨⟨fixtureClaim.nodeId, fixtureRequest.requiredCapabilities, rfl, rfl, _, rfl,
    List.Subset.refl _⟩, ?_⟩
  obtain ⟨payload, db, hrun, -, hcreated⟩ :=
    exists_created fixtureRequest fixtureParts_mediaType (by decide +kernel) ⟨0, by decide⟩
  have hr : fixtureService.machine.Reachable db := reachable_other rfl hrun
  exact ⟨db, _, hr, hcreated.triple.attempt,
    capability_safe_dispatch (WireType.json_lossless _) hr⟩

end Json
end OpenOJ
