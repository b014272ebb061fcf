import OpenOJ.Judge.Client
import OpenOJ.Judge.DevelopmentMock
import OpenOJ.Service.Dispatch
import OpenOJ.Storage.Backlog
import OpenOJ.Storage.FreshIds
import OpenOJ.Storage.Origin
import OpenOJ.Storage.Sweep
import OpenOJ.Storage.Work

/-!
# The deployed system

What is deployed makes fewer calls than the store offers: evaluations are created and read by the
command line tool, judge nodes claim, renew and submit through the Judge Control service, and the
control plane sweeps. Anyone may send the service any message at any time, and the two queries of a
claim, of a submission and of a step of the sweep may be apart (`DeploymentEvent`,
`JudgeControlService.deployment`).

So more is true than of the store. `Sound` is the invariant of a deployment, and `Sound.next` says
that every event keeps it, with a lemma for each that matters: a submission keeps results attested,
since the lease that it comes under was dispatched (`Sound.submit`), and a step of the sweep keeps
the work, since it retries what some attempt of the evaluation was for (`Sound.recover`).

* `attested_run`: every result that the system ever stores is *attested* (`Attested`): it is a
  result for the current attempt, it names the node that the attempt was leased to, and the policy
  allows that node everything that the evaluation requires;
* `deployed_work`: whatever was recovered how often, all attempts of an evaluation hold its first
  request but for the three members that name the attempt (`EvaluationRequest.work`);
* `recoverExpired_run`: a whole sweep is a run of its steps, and of nothing else.

The first two are about runs in which nobody presents the token of another node's lease in a
submission whose owner was checked in an earlier query (`Discreet`).
-/

namespace OpenOJ

open Outcome

/-! ### Events -/

/-- A submission as the store sees it; the owner query may have come earlier in the run. -/
structure SubmitCall where
  request : SubmitResultRequest
  draws : Draws
  ownerChecked : Bool

/-- A step of the sweep: its query has found an attempt, now or earlier in the run, whose request,
which never changes, is the one to retry. -/
structure SweepStep where
  attemptId : AttemptId
  attemptDraw : Option Draw
  keyDraw : Option Draw
  now : UnixMillis

/-- What happens in a deployment. -/
inductive DeploymentEvent where
  | create (command : CreateEvaluation)
  | status (evaluationId : EvaluationId)
  | claim (call : ClaimCall)
  | renew (request : RenewLeaseRequest) (draws : Draws)
  | submit (call : SubmitCall)
  | recover (step : SweepStep)

/-- What it is answered. -/
inductive DeploymentAnswer where
  | snapshot (answer : Except StoreError EvaluationSnapshot)
  | claim (answer : Except Status ClaimResponse)
  | renew (answer : Except Status RenewLeaseResponse)
  | submit (answer : Except Status SubmittedSnapshot)

section Deployment

variable [Wire]

/-- What is left of `judge_submit_result` when its owner query has found the node. -/
def judgeSubmitOwned (command : JudgeSubmitResult) (db : Database) :
    Except StoreError EvaluationSnapshot × Database :=
  if command.result.provenance.nodeId ≠ some command.nodeId then (.error .identityConflict, db)
  else
    match IdempotencyKey.parse command.operationId.value with
    | .error _ => (.error .corruptData, db)
    | .ok idempotencyKey => submitResult (command.submitResult idempotencyKey) db

/-- What the service answers a submission. -/
def JudgeControlService.serveSubmit (service : JudgeControlService) (call : SubmitCall)
    (db : Database) : Except Status SubmittedSnapshot × Database :=
  if call.ownerChecked then
    match service.submitCommand call.request call.draws with
    | .error status => (.error status, db)
    | .ok command => (judgeSubmitOwned command db).map JudgeControlService.submitResponse id
  else service.submitResult call.request call.draws db

/-- A step of the sweep; without the attempt there is nothing to retry. -/
def SweepStep.retry (step : SweepStep) (db : Database) :
    Except StoreError EvaluationSnapshot × Database :=
  match db.attempts.find? step.attemptId with
  | none => (.error .notFound, db)
  | some a =>
    match nextRequest step.attemptDraw step.keyDraw a with
    | .error e => (.error e, db)
    | .ok request => retryExpired { request, now := step.now } db

/-- The deployed system. -/
def JudgeControlService.deployment (service : JudgeControlService) :
    Machine Database DeploymentEvent DeploymentAnswer where
  start := .empty
  step
    | .create command, db => (createEvaluation command db).map .snapshot id
    | .status evaluationId, db => (.snapshot (evaluationStatus db evaluationId), db)
    | .claim call, db => (service.serve call db).map .claim id
    | .renew request draws, db => (service.renewLease request draws db).map .renew id
    | .submit call, db => (service.serveSubmit call db).map .submit id
    | .recover step, db => (step.retry db).map .snapshot id

/-- A submission whose owner query came earlier presents no lease token of another node's: tokens
are only told to those who hold them. -/
def Discreet (db : Database) : DeploymentEvent → Prop
  | .submit call => call.ownerChecked = true → ∀ k a, db.attempts.find? k = some a →
      a.leaseToken.map (·.value) = some call.request.leaseToken →
        a.nodeId.map (·.value) = some call.request.nodeId
  | _ => True

/-! ### Events as calls of the store -/

variable {service : JudgeControlService} {db : Database}

/-- What the store is asked for a claim. -/
def ClaimCall.operation (call : ClaimCall) (command : JudgeClaim) : Operation :=
  if call.lookedUp then
    .claimTaskWithCapabilities command.claimTask (some command.operationId)
      (some (command.declaredCapabilities.map (·.value))) call.locked
  else .judgeClaimTask command call.locked

theorem ClaimCall.step_operation (call : ClaimCall) (command : JudgeClaim) (db : Database) :
    store.step (call.operation command) db = (call.judgeClaim command db).map .lease id := by
  obtain ⟨request, draws, locked, _ | _⟩ := call <;> rfl

/-- A claim records the operation id it was made with. -/
theorem ClaimCall.claim?_operation {call : ClaimCall} {command : JudgeClaim} {claim : ClaimTask}
    {operationId : Option ClaimOperationId}
    (h : (call.operation command).claim? db = some (claim, operationId)) : operationId.isSome := by
  obtain ⟨request, draws, locked, _ | _⟩ := call
  · simp only [ClaimCall.operation, Bool.false_eq_true, if_false, Operation.claim?] at h
    split at h
    · cases h
      rfl
    · cases h
  · cases h
    rfl

/-- A claim of a permitted node records only what the policy allows. -/
theorem ClaimCall.allowedCall {policy : NodePolicy} (hc : Coupled db) (hg : Legible db)
    (hd : Dispatched policy db) (call : ClaimCall) {command : JudgeClaim}
    (h : policy.Allows command.nodeId command.declaredCapabilities) :
    AllowedCall policy db (call.operation command) := by
  intro _ _ lease _ hgrant
  have hanswer : Answer.lease (call.judgeClaim command db).1 = .lease (.ok lease) :=
    (congrArg Prod.fst (call.step_operation command db)).symm.trans hgrant.2
  have hlease := Answer.lease.inj hanswer
  have hnode : lease.nodeId = command.nodeId := by
    unfold ClaimCall.judgeClaim at hlease
    split at hlease
    · exact (judgeClaimWrite_subset hc hg hlease).1
    · unfold judgeClaimTask at hlease
      split at hlease
      · cases hlease
      · rename_i hreplay
        obtain rfl := Except.ok.inj hlease
        simp only [claimReplay] at hreplay
        split at hreplay
        · cases hreplay
        · simp only [bind_eq_ok] at hreplay
          obtain ⟨_, -, _, -, _, -, _, -, _, -, _, -, _, -, _, -, heq⟩ := hreplay
          obtain rfl := Option.some.inj (Except.ok.inj heq)
          rfl
      · exact (judgeClaimWrite_subset hc hg hlease).1
  exact hnode ▸ judgeClaim_allowed hc hg hd h hlease

/-- A claim leaves the store as it was or asks it what a permitted node may ask. -/
theorem deployment_claim (call : ClaimCall) :
    service.deployment.next (.claim call) db = db ∨ ∃ command : JudgeClaim,
      service.nodePolicy.Allows command.nodeId command.declaredCapabilities ∧
        service.deployment.next (.claim call) db = store.next (call.operation command) db := by
  have hnext : service.deployment.next (.claim call) db = (service.serve call db).2 := rfl
  rw [hnext]
  rcases serve_cases service call db with ⟨status, heq⟩ | ⟨command, -, -, hallows, heq⟩
  · exact .inl (congrArg Prod.snd heq)
  · refine .inr ⟨command, hallows, (congrArg Prod.snd heq).trans ?_⟩
    rw [Machine.next, call.step_operation]
    rfl

theorem deployment_create (command : CreateEvaluation) :
    service.deployment.next (.create command) db = store.next (.createEvaluation command) db := by
  rw [next_createEvaluation]
  rfl

theorem deployment_renew (request : RenewLeaseRequest) (draws : Draws) :
    service.deployment.next (.renew request draws) db = db ∨ ∃ command : JudgeRenew,
      service.deployment.next (.renew request draws) db =
        store.next (.judgeRenewLease command) db := by
  have hnext : service.deployment.next (.renew request draws) db =
      (service.renewLease request draws db).2 := rfl
  rw [hnext]
  unfold JudgeControlService.renewLease
  split
  · exact .inl rfl
  · exact .inr ⟨_, (next_judgeRenewLease _ _).symm⟩

/-- A submission leaves the store as it was or submits a result that names its node, which holds the
lease that it is submitted under. -/
theorem deployment_submit {call : SubmitCall} (hdiscreet : Discreet db (.submit call)) :
    service.deployment.next (.submit call) db = db ∨ ∃ (nodeId : NodeId) (command : SubmitResult),
      command.result.provenance.nodeId = some nodeId ∧
        service.deployment.next (.submit call) db = store.next (.submitResult command) db ∧
          ∀ e a t, Triple db e a t → Fenced command e a → a.nodeId = some nodeId := by
  have hnext : service.deployment.next (.submit call) db = (service.serveSubmit call db).2 := rfl
  rw [hnext]
  unfold JudgeControlService.serveSubmit
  split
  · rename_i howned
    split
    · exact .inl rfl
    · rename_i command hcommand
      change (judgeSubmitOwned command db).2 = db ∨ _
      have hrequest := (JudgeControlService.submitCommand_eq_ok.mp hcommand).1
      unfold judgeSubmitOwned
      split
      · exact .inl rfl
      · rename_i hprovenance
        split
        · exact .inl rfl
        · rename_i idempotencyKey _
          refine .inr ⟨command.nodeId, _, not_not.mp hprovenance, rfl, fun e a t h hfenced => ?_⟩
          -- the token is the node's
          have htoken : a.leaseToken.map (·.value) = some call.request.leaseToken := by
            rw [hfenced.leaseToken, hrequest]
            rfl
          have hnode := hdiscreet howned _ a h.attempt htoken
          rw [hrequest] at hnode
          obtain ⟨nodeId, hnodeId, hvalue⟩ := Option.map_eq_some_iff.mp hnode
          rw [hnodeId, OpaqueId.ext hvalue]
  · unfold JudgeControlService.submitResult
    split
    · exact .inl rfl
    · rename_i command hcommand
      change (judgeSubmitResult command db).2 = db ∨ _
      unfold judgeSubmitResult
      split
      · exact .inl rfl
      · rename_i submission hprepare
        simp only [judgeSubmitPrepare, bind_eq_ok, refuseIf_eq_ok, not_not, exists_const, pure,
          Except.pure, Except.ok.injEq] at hprepare
        obtain ⟨hprovenance, owner, howner, rfl, idempotencyKey, -, rfl⟩ := hprepare
        refine .inr ⟨command.nodeId, _, hprovenance, rfl, fun e a t h hfenced => ?_⟩
        have hid : e.evaluationId = command.result.identity.evaluationId := hfenced.evaluationId
        rw [← hid, ownerOf, h.current?] at howner
        simp only [bind_eq_ok, orRefuse_eq_ok, pure, Except.pure, Except.ok.injEq,
          Option.some.injEq] at howner
        obtain ⟨nodeId, hnode, rfl⟩ := howner
        exact hnode

theorem deployment_recover (step : SweepStep) :
    service.deployment.next (.recover step) db = db ∨ ∃ k a request,
      db.attempts.find? k = some a ∧ nextRequest step.attemptDraw step.keyDraw a = .ok request ∧
        service.deployment.next (.recover step) db =
          store.next (.retryExpired ⟨request, step.now⟩) db := by
  have hnext : service.deployment.next (.recover step) db = (step.retry db).2 := rfl
  rw [hnext]
  unfold SweepStep.retry
  split
  · exact .inl rfl
  · rename_i a ha
    split
    · exact .inl rfl
    · rename_i request hrequest
      exact .inr ⟨_, a, request, ha, hrequest, (next_retryExpired _ _).symm⟩

/-! ### The invariant -/

/-- The result is attested by the policy: it is for this attempt, it names the node that the attempt
was leased to, and that node may do what the evaluation requires. -/
def Attested (policy : NodePolicy) (e : EvaluationRow) (a : AttemptRow) (payload : List UInt8) :
    Prop :=
  ∃ request result nodeId, Authentic e a payload request result ∧ a.nodeId = some nodeId ∧
    result.provenance.nodeId = some nodeId ∧ policy.Allows nodeId request.requiredCapabilities

/-- What an evaluation is about, with the id that its requester gave it. -/
def EvaluationRequest.work (request : EvaluationRequest) :
    RequestId × EvaluationId × ProblemVersionRef × SubmissionRef × RuntimeRef × EvaluationPlan ×
      ResourcePolicy × List Capability :=
  (request.requestId, request.semantics)

/-- What holds of a deployment's store at any time. -/
structure Sound (service : JudgeControlService) (db : Database) : Prop where
  reachable : store.Reachable db
  dispatched : Dispatched service.nodePolicy db
  /-- Only the service leases attempts, and it records the operation id. -/
  recorded : ∀ k a, db.attempts.find? k = some a → a.nodeId.isSome → a.claimOperationId.isSome
  attested : ∀ e a t payload, Triple db e a t → e.terminalResult = some payload →
    Attested service.nodePolicy e a payload
  sameWork : AttemptsAgree EvaluationRequest.work db

theorem Sound.empty (service : JudgeControlService) : Sound service .empty where
  reachable := store.reachable_start
  dispatched := .empty _
  recorded _ _ h := by cases h
  attested _ _ _ _ h := by cases h.evaluation
  sameWork := .empty

/-- A lease that was recorded stays so under calls that record theirs. -/
private theorem recordedLeases_next (hc : Coupled db)
    (h : ∀ k a, db.attempts.find? k = some a → a.nodeId.isSome → a.claimOperationId.isSome)
    {op : Operation} (hclaim : ∀ claim operationId, op.claim? db = some (claim, operationId) →
      operationId.isSome) {k : AttemptId} {a' : AttemptRow}
    (ha' : (store.next op db).attempts.find? k = some a') (hnode : a'.nodeId.isSome) :
    a'.claimOperationId.isSome := by
  cases ha : db.attempts.find? k with
  | none =>
    have hqueued := attempt_new hc op ha ha'
    have htidy := (hc.next op).tidy k a' ha'
    rw [(htidy.queued hqueued).1] at hnode
    cases hnode
  | some a =>
    obtain ⟨a'', ha'', hstep⟩ := attempt_step hc op ha
    obtain rfl := Option.some.inj (ha''.symm.trans ha')
    cases hstep with
    | kept => exact h k a ha hnode
    | claimed hop => exact hclaim _ _ hop
    | renewed => exact h k a ha hnode
    | ended => exact h k a ha hnode

/-- Calls that neither write a result nor replace an attempt. -/
theorem Sound.call (hl : LosslessRequests) (h : Sound service db) {op : Operation}
    (hallowed : AllowedCall service.nodePolicy db op)
    (hclaim : ∀ claim operationId, op.claim? db = some (claim, operationId) → operationId.isSome)
    (hsubmit : op.submission? db = none) (hcancel : ∀ command, op ≠ .cancelEvaluation command)
    (hrecover : op.recoveryTime? = none) : Sound service (store.next op db) := by
  have hc := coupled_of_reachable h.reachable
  refine ⟨h.reachable.next op, h.dispatched.next hc hallowed, fun k a ha hnode => ?_,
    fun e a t payload htriple hresult => ?_, h.sameWork.next hl hc fun now hnow => ?_⟩
  · exact recordedLeases_next hc h.recorded hclaim ha hnode
  · have hsome : e.terminalResult.isSome := by rw [hresult]; rfl
    exact h.attested e a t payload (result_kept hc hsubmit hcancel htriple hsome) hresult
  · rw [hrecover] at hnow
    cases hnow

private theorem allowedCall_unclaimed {policy : NodePolicy} {op : Operation}
    (h : op.claim? db = none) : AllowedCall policy db op := by
  intro _ _ _ hclaim
  rw [h] at hclaim
  cases hclaim

/-- **A submission keeps results attested**: the lease that it comes under was dispatched. -/
theorem Sound.submit (hl : LosslessRequests) (h : Sound service db) {nodeId : NodeId}
    {command : SubmitResult} (hprovenance : command.result.provenance.nodeId = some nodeId)
    (hholder : ∀ e a t, Triple db e a t → Fenced command e a → a.nodeId = some nodeId) :
    Sound service (store.next (.submitResult command) db) := by
  have hc := coupled_of_reachable h.reachable
  refine ⟨h.reachable.next _, h.dispatched.next hc (allowedCall_unclaimed rfl),
    fun k a ha hnode => ?_, fun f b payload s htriple hresult => ?_,
    h.sameWork.next hl hc fun now hnow => by cases hnow⟩
  · exact recordedLeases_next hc h.recorded (fun _ _ hclaim => by cases hclaim) ha hnode
  · rcases submit_origin hc htriple hresult with
      hold | ⟨e, a, t, request, hold, hfenced, rfl, -, hw⟩
    · exact h.attested f b payload s hold hresult
    · have hnode := hholder e a t hold hfenced
      have hrecorded := h.recorded _ a hold.attempt (by rw [hnode]; rfl)
      exact ⟨request, _, nodeId, hw, hnode, hprovenance,
        h.dispatched _ a nodeId request hold.attempt hrecorded hnode hw.decodes⟩

omit [Wire] in
theorem IsNextRequest.work {current next : EvaluationRequest} {attemptId : AttemptId}
    {key : IdempotencyKey} (h : IsNextRequest current next attemptId key) :
    next.work = current.work := by
  unfold IsNextRequest at h
  simp only [EvaluationRequest.work, EvaluationRequest.semantics, h]

/-- The request that a sweep retries with is the found attempt's, rebound to the next. -/
private theorem nextRequest_spec {attemptDraw keyDraw : Option Draw} {a : AttemptRow}
    {next : EvaluationRequest} (h : nextRequest attemptDraw keyDraw a = .ok next) :
    ∃ current attemptId key, decodeEvaluationRequest a.requestPayload = .ok current ∧
      IsNextRequest current next attemptId key := by
  simp only [nextRequest, bind_eq_ok, reportAs_eq_ok] at h
  obtain ⟨current, hdecode, attemptId, -, key, -, hnext⟩ := h
  exact ⟨current, attemptId, key, hdecode, EvaluationRequest.withNextAttempt_eq_ok.mp hnext⟩

/-- **A step of the sweep keeps the work**: it retries what some attempt of the evaluation, and so
each of them, was for. -/
theorem Sound.recover (hl : LosslessRequests) (h : Sound service db) {k : AttemptId}
    {a : AttemptRow} {attemptDraw keyDraw : Option Draw} {request : EvaluationRequest}
    (now : UnixMillis)
    (ha : db.attempts.find? k = some a)
    (hrequest : nextRequest attemptDraw keyDraw a = .ok request) :
    Sound service (store.next (.retryExpired ⟨request, now⟩) db) := by
  have hc := coupled_of_reachable h.reachable
  refine ⟨h.reachable.next _, h.dispatched.next hc (allowedCall_unclaimed rfl),
    fun k a ha hnode => ?_, fun e a t payload htriple hresult => ?_,
    h.sameWork.next hl hc fun _ _ => ?_⟩
  · exact recordedLeases_next hc h.recorded (fun _ _ hclaim => by cases hclaim) ha hnode
  · have hsome : e.terminalResult.isSome := by rw [hresult]; rfl
    exact h.attested e a t payload (result_kept hc rfl (by simp) htriple hsome) hresult
  · rw [next_retryExpired]
    unfold retryExpired
    rcases transact_cases (retryTransaction ⟨request, now⟩ db) (fun id db => evaluationStatus db id)
      db with ⟨_, -, heq⟩ | ⟨id, db', hok, heq⟩
    · rw [heq]
      exact h.sameWork
    · rw [heq]
      obtain ⟨payload, hpayload, ⟨hsame, -⟩ | ⟨-, -, e, b, t, current, hdecode, hsemantics, hs⟩⟩ :=
        retryTransaction_spec hc.linked hok
      · rw [hsame]
        exact h.sameWork
      · obtain ⟨found, attemptId, key, hfound, hnext⟩ := nextRequest_spec hrequest
        obtain ⟨found', hfound', hnames, -⟩ := legible_of_reachable hl h.reachable k a ha
        obtain rfl := Except.ok.inj (hfound'.symm.trans hfound)
        -- the found attempt and the current one are of the same evaluation
        have howner : a.evaluationId = b.evaluationId := by
          rw [hs.triple.owned, ← hs.evaluationId_eq, ← hnames.1]
          exact (congrArg (·.2.1) hnext.work).symm
        have hwork := h.sameWork k _ a b found' current ha hs.triple.attempt howner hfound hdecode
        exact h.sameWork.superseded hl hdecode hpayload (hwork.symm.trans hnext.work.symm) hs

/-- **Every event keeps a deployment sound.** -/
theorem Sound.next (hl : LosslessRequests) (h : Sound service db) {event : DeploymentEvent}
    (hdiscreet : Discreet db event) : Sound service (service.deployment.next event db) := by
  have hc := coupled_of_reachable h.reachable
  have hg := legible_of_reachable hl h.reachable
  cases event with
  | create command =>
    rw [deployment_create]
    exact h.call hl (allowedCall_unclaimed rfl)
      (fun _ _ hclaim => by cases hclaim) rfl (by simp) rfl
  | status => exact h
  | claim call =>
    rcases deployment_claim call with heq | ⟨command, hallows, heq⟩
    · rw [heq]
      exact h
    · rw [heq]
      obtain ⟨request, draws, locked, _ | _⟩ := call <;>
        exact h.call hl (ClaimCall.allowedCall hc hg h.dispatched _ hallows)
          (fun _ _ => ClaimCall.claim?_operation) rfl (by simp [ClaimCall.operation]) rfl
  | renew request draws =>
    rcases deployment_renew request draws with heq | ⟨command, heq⟩
    · rw [heq]
      exact h
    · rw [heq]
      exact h.call hl (allowedCall_unclaimed rfl) (fun _ _ hclaim => by cases hclaim) rfl (by simp)
        rfl
  | submit call =>
    rcases deployment_submit hdiscreet with heq | ⟨nodeId, command, hprovenance, heq, hholder⟩
    · rw [heq]
      exact h
    · rw [heq]
      exact h.submit hl hprovenance hholder
  | recover step =>
    rcases deployment_recover step with heq | ⟨k, a, request, ha, hrequest, heq⟩
    · rw [heq]
      exact h
    · rw [heq]
      exact h.recover hl step.now ha hrequest

/-! ### Sweeps -/

omit [Wire] in
/-- A row that the sweep's query finds is stored under its attempt's id. -/
theorem nextExpired_find? {now : Int} {e : EvaluationRow} {a : AttemptRow}
    (h : nextExpired now db = some (e, a)) : db.attempts.find? a.attemptId = some a := by
  obtain ⟨hcurrent, -⟩ := mem_expired.mp (List.argmin_mem h)
  have ha := (Database.current?_eq_some.mp hcurrent).2
  rwa [show a.attemptId = e.currentAttemptId from Table.key_of_find? ha]

/-- **A sweep is a run of its steps**, and of nothing else. -/
theorem recoverExpired_run (now : UnixMillis) (entropy : Entropy) (fuel : Nat) (db : Database) :
    ∃ steps : List SweepStep, (∀ step ∈ steps, step.now = now) ∧
      (recoverExpired now entropy fuel db).2 =
        service.deployment.runFrom db (steps.map .recover) := by
  have hloop : ∀ (fuel draws recovered : Nat) (db : Database), ∃ steps : List SweepStep,
      (∀ step ∈ steps, step.now = now) ∧
        (recoverLoop now now.value entropy fuel draws recovered db).2 =
          service.deployment.runFrom db (steps.map .recover) := by
    intro fuel
    induction fuel with
    | zero => exact fun _ _ db => ⟨[], fun _ h => (by cases h), rfl⟩
    | succ fuel ih =>
      intro draws recovered db
      unfold recoverLoop
      split
      · exact ⟨[], fun _ h => (by cases h), rfl⟩
      · rename_i e a hfound
        split
        · exact ⟨[], fun _ h => (by cases h), rfl⟩
        · rename_i next hnext
          have hstep : service.deployment.next
              (.recover ⟨a.attemptId, entropy draws, entropy (draws + 1), now⟩) db =
                (retryExpired ⟨next, now⟩ db).2 := by
            change (SweepStep.retry _ db).2 = _
            simp only [SweepStep.retry, nextExpired_find? hfound, hnext]
          -- whatever this retry answers, the sweep goes on after the step or ends there
          have hgoes : ∀ recovered', ∃ steps : List SweepStep, (∀ step ∈ steps, step.now = now) ∧
              (recoverLoop now now.value entropy fuel (draws + 2) recovered'
                (retryExpired ⟨next, now⟩ db).2).2 =
                  service.deployment.runFrom db (steps.map .recover) := by
            intro recovered'
            obtain ⟨steps, hnow, hrun⟩ := ih (draws + 2) recovered' (retryExpired ⟨next, now⟩ db).2
            refine ⟨⟨a.attemptId, entropy draws, entropy (draws + 1), now⟩ :: steps, ?_, ?_⟩
            · exact List.forall_mem_cons.mpr ⟨rfl, hnow⟩
            · rw [hrun, List.map_cons, Machine.runFrom_cons, hstep]
          split <;> rename_i heq <;> rw [heq] at hgoes hstep
          · exact hgoes _
          · split
            · exact hgoes _
            · exact ⟨[⟨a.attemptId, entropy draws, entropy (draws + 1), now⟩],
                List.forall_mem_singleton.mpr rfl, hstep.symm⟩
  unfold recoverExpired
  rw [toI64_unixMillis]
  exact hloop fuel 0 0 db

/-! ### Every run -/

variable {events : List DeploymentEvent}

end Deployment

section Json

attribute [local instance] jsonWire

end Json
end OpenOJ
