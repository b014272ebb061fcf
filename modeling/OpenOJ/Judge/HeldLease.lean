import OpenOJ.Judge.Worker
import OpenOJ.Storage.Claim
import OpenOJ.Storage.Stale

/-!
# The lease of a working node

A control plane grants a lease for the policy's duration, from the claim or from a renewal that is
told to continue, and until then nobody takes it away (`Setting.Leases`). The worker renews once,
before it executes. So its lease is kept exactly when the renewal comes within the duration of the
claim, and the submission, with the execution before it, within the duration of the renewal.

What it means to keep a lease is said of the calls that were made, with their times
(`Setting.KeepsLease`, `Unbroken`), and the condition of the times that are given
(`Setting.Timely`):

* `keepsLease_iff`: for every control plane that keeps leases, a run keeps its lease exactly when it
  is timely;
* `store_leases`: the store is such a control plane, whatever other nodes call in between.

For the second, `HeldUntil` is the invariant of a lease in the store, and `HeldUntil.next` says that
it stays held, whatever call anyone makes without its token. A submission on such a lease is refused
for other reasons only (`submitTransaction_ne_stale`, `judgeSubmitResult_ne_stale`), and once the
lease has run out it is refused as stale (`judgeSubmitResult_expired`).

`slowExecution_stale` is an execution that takes four times as long as a lease.
-/

namespace OpenOJ

open Outcome Relation

/-! ### Keeping a lease -/

namespace Setting

variable {σ : Type} {setting : Setting σ}

/-- No two calls in a row are further apart than a lease lasts. -/
def Unbroken (policy : LeasePolicy) (calls : List (ControlCall × Nat)) : Prop :=
  calls.IsChain fun c c' => c'.2 ≤ c.2 + policy.leaseDuration.value

/-- A lease does not lapse under the worker: its calls follow each other within the duration of
the lease, and a submission that it makes is not refused as one of a lease that has ended. -/
structure KeepsLease (setting : Setting σ) (policy : LeasePolicy)
    (claimOperationId : ClaimOperationId) (resultOperationId : ResultOperationId)
    (w : Clocked σ) : Prop where
  unbroken : Unbroken policy (setting.run claimOperationId resultOperationId w).2.calls
  accepted : (∃ now, (.submit, now) ∈
    (setting.run claimOperationId resultOperationId w).2.calls) →
      (setting.run claimOperationId resultOperationId w).1 ≠ .error (.store .staleLease)

/-- The times of a run are within the duration of the lease: from the claim to the renewal, and,
when the worker is told to continue and obtains a result, from the renewal through the
execution to the submission. -/
def Timely (setting : Setting σ) (policy : LeasePolicy) (claimOperationId : ClaimOperationId)
    (w : Clocked σ) : Prop :=
  ∀ lease, (setting.claimed claimOperationId w).1 = .ok (.lease lease) →
    setting.back .claim + setting.out .renew ≤ policy.leaseDuration.value ∧
      ∀ x, (setting.renewed claimOperationId w lease).1 = .ok (.continue x) →
        ∀ result, setting.execute lease.request = .ok result →
          setting.back .renew + setting.duration lease.request + setting.out .submit ≤
            policy.leaseDuration.value

/-- What a control plane does with leases: a claim with a fresh operation id and a renewal that is
told to continue grant one from the time of the call; until it has lasted for the policy's
duration others leave it alone, and a result for its request is not refused as stale. -/
structure Leases (setting : Setting σ) (policy : LeasePolicy)
    (Fresh : ClaimOperationId → σ → Prop) (Held : TaskLease → Nat → σ → Prop) : Prop where
  claim : ∀ operationId now s lease s', Fresh operationId s →
    setting.plane.claim operationId now s = (.ok (.lease lease), s') → Held lease now s'
  renew : ∀ lease since now s x s', Held lease since s → since ≤ now →
    now ≤ since + policy.leaseDuration.value →
      setting.plane.renew lease now s = (.ok (.continue x), s') → Held lease now s'
  meanwhile : ∀ call lease since now s, Held lease since s → since ≤ now →
    now ≤ since + policy.leaseDuration.value → Held lease since (setting.meanwhile call now s)
  submit : ∀ lease operationId result since now s, Held lease since s → since ≤ now →
    now ≤ since + policy.leaseDuration.value →
      result.identity = EvaluationIdentity.fromRequest lease.request →
        (setting.plane.submit lease operationId result now s).1 ≠ .error .staleLease

variable {policy : LeasePolicy} {claimOperationId : ClaimOperationId}
  {resultOperationId : ResultOperationId} {w : Clocked σ}

/-- Two calls are unbroken when the second comes within the duration of the lease. -/
theorem unbroken_pair {c c' : ControlCall × Nat} :
    Unbroken policy [c, c'] ↔ c'.2 ≤ c.2 + policy.leaseDuration.value := by
  simp [Unbroken]

theorem unbroken_triple {c c' c'' : ControlCall × Nat} :
    Unbroken policy [c, c', c''] ↔ c'.2 ≤ c.2 + policy.leaseDuration.value ∧
      c''.2 ≤ c'.2 + policy.leaseDuration.value := by
  simp [Unbroken]

theorem renewedAt_le_iff : setting.renewedAt w ≤
    setting.claimedAt w + policy.leaseDuration.value ↔
      setting.back .claim + setting.out .renew ≤ policy.leaseDuration.value := by
  unfold renewedAt
  omega

theorem submittedAt_le_iff {request : EvaluationRequest} :
    setting.submittedAt w request ≤ setting.renewedAt w + policy.leaseDuration.value ↔
      setting.back .renew + setting.duration request + setting.out .submit ≤
        policy.leaseDuration.value := by
  unfold submittedAt
  omega

/-- The lease is still held when the submission of a timely run is handled. -/
theorem held_at_submission {Fresh : ClaimOperationId → σ → Prop}
    {Held : TaskLease → Nat → σ → Prop} (hleases : setting.Leases policy Fresh Held)
    (hfresh : Fresh claimOperationId
      (setting.meanwhile .claim (setting.claimedAt w) w.plane)) {lease : TaskLease}
    (hclaim : (setting.claimed claimOperationId w).1 = .ok (.lease lease))
    (hfirst : setting.renewedAt w ≤ setting.claimedAt w + policy.leaseDuration.value)
    {x : UnixMillis} (hrenew : (setting.renewed claimOperationId w lease).1 = .ok (.continue x))
    (hsecond : setting.submittedAt w lease.request ≤
      setting.renewedAt w + policy.leaseDuration.value) :
    Held lease (setting.renewedAt w) (setting.meanwhile .submit
      (setting.submittedAt w lease.request) (setting.renewed claimOperationId w lease).2) := by
  have hclaimed : Held lease (setting.claimedAt w) (setting.claimed claimOperationId w).2 :=
    hleases.claim _ _ _ _ _ hfresh (Prod.ext hclaim rfl)
  have hle : setting.claimedAt w ≤ setting.renewedAt w := by unfold renewedAt; omega
  have hrenewed : Held lease (setting.renewedAt w) (setting.renewed claimOperationId w lease).2 :=
    hleases.renew _ _ _ _ x _ (hleases.meanwhile _ _ _ _ _ hclaimed hle hfirst) hle hfirst
      (Prod.ext hrenew rfl)
  have hle' : setting.renewedAt w ≤ setting.submittedAt w lease.request := by
    unfold submittedAt
    omega
  exact hleases.meanwhile _ _ _ _ _ hrenewed hle' hsecond

/-- A run without a submission keeps its lease when its calls are unbroken. -/
theorem keepsLease_of_unsubmitted {calls : List (ControlCall × Nat)}
    (hcalls : (setting.run claimOperationId resultOperationId w).2.calls = calls)
    (h : ∀ now, (.submit, now) ∉ calls) :
    setting.KeepsLease policy claimOperationId resultOperationId w ↔ Unbroken policy calls := by
  constructor
  · rintro ⟨hunbroken, -⟩
    exact hcalls ▸ hunbroken
  · intro hunbroken
    refine ⟨hcalls ▸ hunbroken, ?_⟩
    rintro ⟨now, hmem⟩
    exact absurd (hcalls ▸ hmem) (h now)

/-- A run that submits keeps its lease exactly when both intervals are within its duration. -/
theorem keepsLease_of_submitted {Fresh : ClaimOperationId → σ → Prop}
    {Held : TaskLease → Nat → σ → Prop} (hleases : setting.Leases policy Fresh Held)
    (hfresh : Fresh claimOperationId (setting.meanwhile .claim (setting.claimedAt w) w.plane))
    (hw : w.calls = []) {lease : TaskLease}
    (hclaim : (setting.claimed claimOperationId w).1 = .ok (.lease lease)) {x : UnixMillis}
    (hrenew : (setting.renewed claimOperationId w lease).1 = .ok (.continue x))
    {result : EvaluationResult} (hexecute : setting.execute lease.request = .ok result) :
    setting.KeepsLease policy claimOperationId resultOperationId w ↔
      setting.renewedAt w ≤ setting.claimedAt w + policy.leaseDuration.value ∧
        setting.submittedAt w lease.request ≤
          setting.renewedAt w + policy.leaseDuration.value := by
  have hrun : (setting.run claimOperationId resultOperationId w).2.calls =
      w.calls ++ [(.claim, setting.claimedAt w)] ++ [(.renew, setting.renewedAt w)] ++
        [(.submit, setting.submittedAt w lease.request)] ∧ _ :=
    run_submitted hclaim hrenew hexecute
  -- the three calls, and the times between them
  obtain ⟨hcalls, hanswer⟩ := hrun
  rw [hw, List.nil_append] at hcalls
  constructor
  · rintro ⟨hunbroken, -⟩
    rw [hcalls] at hunbroken
    exact unbroken_triple.mp hunbroken
  · rintro ⟨hfirst, hsecond⟩
    refine ⟨?_, fun _ hstale => ?_⟩
    · rw [hcalls]
      exact unbroken_triple.mpr ⟨hfirst, hsecond⟩
    · -- the lease is held at the submission, which is not refused as stale then
      have hheld := held_at_submission hleases hfresh hclaim hfirst hrenew hsecond
      have hle : setting.renewedAt w ≤ setting.submittedAt w lease.request := by
        unfold submittedAt
        omega
      have hnot := hleases.submit lease resultOperationId result _ _ _ hheld hle hsecond
        (setting.identified _ _ hexecute)
      rw [hanswer] at hstale
      split at hstale
      · rename_i e heq
        obtain rfl : e = .staleLease := by simpa using hstale
        exact hnot heq
      · cases hstale

end Setting

/-! ### A lease in the store -/

variable {db db' : Database} {lease : TaskLease} {expiry : Int}

/-- The evaluation of a lease is still on the lease's attempt: it has ended there, or it is leased
to the holder at least until `expiry`. -/
structure OnLease (db : Database) (lease : TaskLease) (expiry : Int) (e : EvaluationRow)
    (a : AttemptRow) (t : TaskRow) : Prop where
  triple : Triple db e a t
  evaluationId : e.evaluationId = lease.request.evaluationId
  attemptId : e.currentAttemptId = lease.request.attemptId
  nodeId : a.nodeId = some lease.nodeId
  held : e.state.isTerminal = true ∨ (e.state = .leased ∧ a.leaseToken = some lease.leaseToken ∧
    ∃ x, a.leaseExpiresAtMs = some x ∧ expiry ≤ x)

/-- Nobody has taken the lease away. -/
def HeldUntil (db : Database) (lease : TaskLease) (expiry : Int) : Prop :=
  ∃ e a t, OnLease db lease expiry e a t

/-- The call presents a lease token. -/
def Operation.Presents (token : LeaseToken) : Operation → Prop
  | .judgeRenewLease command => command.leaseToken = token
  | .submitResult command => command.leaseToken = token
  | .judgeSubmitResult command => command.leaseToken = token
  | _ => False

section Step

variable {e f : EvaluationRow} {a b : AttemptRow} {t s : TaskRow}

/-- An evaluation on a lease is not a queued one. -/
theorem OnLease.ne_queued (h : OnLease db lease expiry e a t) : e.state ≠ .queued := by
  intro hqueued
  rcases h.held with hended | ⟨hleased, -⟩
  · rw [hqueued] at hended
    cases hended
  · rw [hqueued] at hleased
    cases hleased

/-- Rows that are left alone stay on the lease. -/
theorem OnLease.of_triple (h : OnLease db lease expiry e a t) (htriple : Triple db' e a t) :
    OnLease db' lease expiry e a t :=
  ⟨htriple, h.evaluationId, h.attemptId, h.nodeId, h.held⟩

/-- The evaluation of a lease is the one that is found by its id. -/
theorem OnLease.eq (h : OnLease db lease expiry e a t) (hf : Triple db f b s)
    (hid : f.evaluationId = e.evaluationId) : f = e ∧ b = a ∧ s = t :=
  h.triple.unique hf hid

/-- Replacing attempts whose leases ended by `expiry` leaves the lease alone. -/
theorem HeldUntil.superseded {request : EvaluationRequest} {payload : List UInt8} {now : Int}
    (h : HeldUntil db lease expiry) (hnow : now ≤ expiry)
    (hsuperseded : Superseded db db' f b s request payload now) : HeldUntil db' lease expiry := by
  obtain ⟨e, a, t, h⟩ := h
  refine ⟨e, a, t, h.of_triple ((hsuperseded.sameRows fun hid => ?_).triple h.triple)⟩
  obtain ⟨rfl, rfl, rfl⟩ := h.eq hsuperseded.triple hid.symm
  rcases h.held with hended | ⟨-, -, x, hx, hle⟩
  · rw [hsuperseded.evaluationLeased] at hended
    cases hended
  · obtain ⟨x', hx', hlt⟩ := hsuperseded.expired
    obtain rfl := Option.some.inj (hx.symm.trans hx')
    omega

/-- A terminal write by anyone but the holder ends the evaluation on the lease's attempt or leaves
it alone. -/
theorem HeldUntil.finished {status : EvaluationStatus} {payload : List UInt8}
    {key : IdempotencyKey} {now : Int} (h : HeldUntil db lease expiry)
    (hfinished : Finished db db' f b s status payload key now) : HeldUntil db' lease expiry := by
  obtain ⟨e, a, t, h⟩ := h
  by_cases hid : f.evaluationId = e.evaluationId
  · obtain ⟨rfl, rfl, rfl⟩ := h.eq hfinished.triple hid
    exact ⟨_, _, _, hfinished.rewritten.triple', h.evaluationId, h.attemptId, h.nodeId,
      .inl status.evaluationState_isTerminal⟩
  · exact ⟨e, a, t, h.of_triple
      ((hfinished.rewritten.sameRows fun heq => hid heq.symm).triple h.triple)⟩

variable [Wire]

/-- **A lease that has not expired stays held**, whatever call anyone makes without its token. -/
theorem HeldUntil.next (hc : Coupled db) (h : HeldUntil db lease expiry) {op : Operation}
    (hforeign : ¬op.Presents lease.leaseToken)
    (htime : ∀ now, op.recoveryTime? = some now → (now.value : Int) ≤ expiry) :
    HeldUntil (store.next op db) lease expiry := by
  have hperformed := performed hc op
  generalize store.next op db = db' at hperformed
  cases hperformed with
  | idle => exact h
  | created _ _ hcreated =>
    obtain ⟨e, a, t, h⟩ := h
    exact ⟨e, a, t, h.of_triple (hcreated.other_triple h.triple)⟩
  | claimed _ _ _ hclaimed =>
    obtain ⟨e, a, t, h⟩ := h
    refine ⟨e, a, t, h.of_triple ((hclaimed.rewritten.sameRows fun hid => ?_).triple h.triple)⟩
    obtain ⟨rfl, -, -⟩ := h.eq hclaimed.triple hid.symm
    exact h.ne_queued hclaimed.evaluationQueued
  | @renewed command _ _ _ _ _ _ hholds _ hrenewed =>
    obtain ⟨e, a, t, h⟩ := h
    obtain ⟨s, htriple⟩ := hrenewed.triple hc.linked
    refine ⟨e, a, t, h.of_triple
      (((hrenewed.rewritten htriple).sameRows fun hid => ?_).triple h.triple)⟩
    obtain ⟨rfl, rfl, rfl⟩ := h.eq htriple hid.symm
    -- the command would be the holder's
    rcases h.held with hended | ⟨-, htoken, -⟩
    · rw [hrenewed.evaluationLeased] at hended
      cases hended
    · exact hforeign (Option.some.inj (hholds.2.2.symm.trans htoken))
  | @recovered _ now _ hop hrecovered =>
    have hle := htime now hop
    refine (recoveries_preserve (P := fun db => HeldUntil db lease expiry) ?_ hrecovered hc h).2
    rintro db₁ db₂ - ⟨_, _, _, _, _, _, -, -, -, hsuperseded⟩ h
    exact h.superseded hle hsuperseded
  | submitted _ _ hfinished => exact h.finished hfinished
  | cancelled _ hfinished => exact h.finished hfinished

/-- The same of a whole run of such calls. -/
theorem HeldUntil.runFrom (hr : store.Reachable db) (h : HeldUntil db lease expiry)
    {ops : List Operation} (hforeign : ∀ op ∈ ops, ¬op.Presents lease.leaseToken)
    (htime : ∀ op ∈ ops, ∀ now, op.recoveryTime? = some now → (now.value : Int) ≤ expiry) :
    HeldUntil (store.runFrom db ops) lease expiry := by
  induction ops generalizing db with
  | nil => exact h
  | cons op ops ih =>
    rw [Machine.runFrom_cons]
    have hnext := h.next (coupled_of_reachable hr) (hforeign op (List.mem_cons_self ..))
      (htime op (List.mem_cons_self ..))
    exact ih (hr.next op) hnext (fun op' hop => hforeign op' (List.mem_cons_of_mem _ hop))
      fun op' hop => htime op' (List.mem_cons_of_mem _ hop)

end Step

/-! ### The store as a control plane -/

section Store

variable [Wire]

/-- What the control plane knows of a node's calls beside what they say. -/
structure NodeContext where
  nodeId : NodeId
  capabilities : List Capability
  leaseToken : LeaseToken
  policy : LeasePolicy
  locked : AttemptId → Bool

/-- What a claim's answer is to the worker. -/
def workerClaim : Except StoreError TaskLease → Except StoreError WorkerClaim
  | .ok lease => .ok (.lease lease)
  | .error .noTaskAvailable => .ok .noTask
  | .error e => .error e

/-- A call at a time that the clock can tell. -/
def atTime {α β : Type} (now : Nat) (call : UnixMillis → Except StoreError α × Database)
    (answer : Except StoreError α → Except StoreError β) (db : Database) :
    Except StoreError β × Database :=
  match UnixMillis.new now with
  | .error _ => (.error .unavailable, db)
  | .ok now => (answer (call now).1, (call now).2)

namespace NodeContext

/-- The command of a claim, a renewal and a submission of the node. -/
def claimCommand (context : NodeContext) (operationId : ClaimOperationId) (now : UnixMillis) :
    JudgeClaim :=
  ⟨context.nodeId, context.capabilities, operationId, context.leaseToken, now, context.policy⟩

def renewCommand (context : NodeContext) (lease : TaskLease) (now : UnixMillis) : JudgeRenew :=
  ⟨context.nodeId, lease.request.evaluationId, lease.request.attemptId, lease.leaseToken, now,
    context.policy⟩

def submitCommand (context : NodeContext) (lease : TaskLease) (operationId : ResultOperationId)
    (result : EvaluationResult) (now : UnixMillis) : JudgeSubmitResult :=
  ⟨context.nodeId, operationId, lease.leaseToken, result, now⟩

end NodeContext

/-- The store, as the control plane of one node. -/
def NodeContext.plane (context : NodeContext) : ControlPlane Database where
  claim operationId now db :=
    atTime now (fun now => judgeClaimTask (context.claimCommand operationId now) context.locked db)
      workerClaim db
  renew lease now db :=
    atTime now (fun now => judgeRenewLease (context.renewCommand lease now) db) id db
  submit lease operationId result now db :=
    atTime now (fun now =>
      judgeSubmitResult (context.submitCommand lease operationId result now) db)
      (fun answer => answer.map fun _ => ()) db

/-- The lease is the node's and held for the policy's duration from `since`. -/
structure NodeContext.Held (context : NodeContext) (lease : TaskLease) (since : Nat)
    (db : Database) : Prop where
  reachable : store.Reachable db
  nodeId : lease.nodeId = context.nodeId
  leaseToken : lease.leaseToken = context.leaseToken
  held : HeldUntil db lease (since + context.policy.leaseDuration.value : Nat)

/-- No attempt records the operation id. -/
def FreshOperation (operationId : ClaimOperationId) (db : Database) : Prop :=
  store.Reachable db ∧ ∀ a ∈ db.attempts.rows, a.claimOperationId ≠ some operationId

omit [Wire] in
/-- A call that answers is made at a time the clock can tell. -/
theorem atTime_eq_ok {α β : Type} {now : Nat} {call : UnixMillis → Except StoreError α × Database}
    {answer : Except StoreError α → Except StoreError β} {b : β}
    (h : atTime now call answer db = (.ok b, db')) :
    ∃ time : UnixMillis, time.value = now ∧ answer (call time).1 = .ok b ∧ (call time).2 = db' := by
  unfold atTime UnixMillis.new at h
  split at h
  · cases h
  · rename_i time heq
    split at heq
    · obtain rfl := Except.ok.inj heq
      exact ⟨_, rfl, congrArg Prod.fst h, congrArg Prod.snd h⟩
    · cases heq

omit [Wire] in
/-- A call at a time the clock can tell is answered by its handler. -/
theorem atTime_value {α β : Type} (time : UnixMillis)
    (call : UnixMillis → Except StoreError α × Database)
    (answer : Except StoreError α → Except StoreError β) :
    atTime time.value call answer db = (answer (call time).1, (call time).2) := by
  have hnew : UnixMillis.new time.value = .ok time := dif_pos time.valid
  rw [atTime, hnew]

omit [Wire] in
/-- A call that is refused is refused by its handler or made at no time the clock can tell. -/
theorem atTime_eq_error {α β : Type} {now : Nat}
    {call : UnixMillis → Except StoreError α × Database}
    {answer : Except StoreError α → Except StoreError β} {e : StoreError}
    (h : (atTime now call answer db).1 = .error e) (he : e ≠ .unavailable) :
    ∃ time : UnixMillis, time.value = now ∧ answer (call time).1 = .error e := by
  unfold atTime UnixMillis.new at h
  split at h
  · exact absurd (Except.error.inj h).symm he
  · rename_i time heq
    split at heq
    · obtain rfl := Except.ok.inj heq
      exact ⟨_, rfl, h⟩
    · cases heq

namespace NodeContext

variable (context : NodeContext) (time : UnixMillis)

theorem claim_value (operationId : ClaimOperationId) :
    context.plane.claim operationId time.value db =
      (workerClaim (judgeClaimTask (context.claimCommand operationId time) context.locked db).1,
        (judgeClaimTask (context.claimCommand operationId time) context.locked db).2) :=
  atTime_value time _ _

theorem renew_value :
    context.plane.renew lease time.value db =
      judgeRenewLease (context.renewCommand lease time) db :=
  atTime_value time _ _

theorem submit_value (operationId : ResultOperationId) (result : EvaluationResult) :
    context.plane.submit lease operationId result time.value db =
      ((judgeSubmitResult (context.submitCommand lease operationId result time) db).1.map
        (fun _ => ()),
        (judgeSubmitResult (context.submitCommand lease operationId result time) db).2) :=
  atTime_value time _ _

end NodeContext

/-- A submission that the store refuses as stale is refused to the worker as such. -/
theorem NodeContext.submit_stale {context : NodeContext} {time : UnixMillis}
    {operationId : ResultOperationId} {result : EvaluationResult}
    (h : judgeSubmitResult (context.submitCommand lease operationId result time) db =
      (.error .staleLease, db)) :
    context.plane.submit lease operationId result time.value db = (.error .staleLease, db) := by
  rw [submit_value, h]
  rfl

/-- A fresh claim of a node that is granted is held from then on. -/
theorem held_of_claim {context : NodeContext} {operationId : ClaimOperationId} {now : Nat}
    (hfresh : FreshOperation operationId db)
    (h : context.plane.claim operationId now db = (.ok (.lease lease), db')) :
    context.Held lease now db' := by
  obtain ⟨time, rfl, hanswer, rfl⟩ := atTime_eq_ok h
  obtain ⟨hr, hnone⟩ := hfresh
  have hreachable :
      store.Reachable
        (judgeClaimTask (context.claimCommand operationId time) context.locked db).2 :=
    hr.next (.judgeClaimTask (context.claimCommand operationId time) context.locked)
  have hreplay : claimReplay (context.claimCommand operationId time) db = .ok none :=
    claimReplay_eq_none.mpr hnone
  rw [judgeClaimTask, hreplay] at hanswer hreachable ⊢
  simp only [judgeClaimWrite, claimTaskWithCapabilities] at hanswer hreachable ⊢
  rcases transact_cases (claimTransaction (context.claimCommand operationId time).claimTask
    (some (context.claimCommand operationId time).operationId)
    (some ((context.claimCommand operationId time).declaredCapabilities.map (·.value)))
    context.locked db) (fun lease _ => .ok lease) db with
      ⟨e, -, heq⟩ | ⟨granted, next, hok, heq⟩
  · rw [heq] at hanswer
    cases e <;> cases hanswer
  · rw [heq] at hanswer hreachable ⊢
    obtain rfl : granted = lease := by simpa [workerClaim] using hanswer
    obtain ⟨e, a, t, -, hgranted, hclaimed⟩ :=
      claimTransaction_spec (coupled_of_reachable hr).linked hok
    refine ⟨hreachable, hgranted.nodeId, hgranted.leaseToken, _, _, _,
      hclaimed.rewritten.triple', ?_, ?_, ?_, ?_⟩
    · exact hclaimed.triple.owned.symm.trans hgranted.names.1.symm
    · exact hclaimed.triple.attemptId.symm.trans hgranted.names.2.1.symm
    · exact congrArg some hgranted.nodeId.symm
    · refine .inr ⟨rfl, congrArg some hgranted.leaseToken.symm, _, rfl, ?_⟩
      rw [hgranted.expiresAt]
      exact Int.le_refl _

omit [Wire] in
/-- A renewal that is told to continue has moved the expiry of the lease its command holds. -/
theorem judgeRenewLease_spec {command : JudgeRenew} {x : UnixMillis}
    (h : (judgeRenewLease command db).1 = .ok (.continue x)) :
    ∃ e a, e.evaluationId = command.evaluationId ∧ command.Holds a ∧
      x.value = command.now.value + command.leasePolicy.leaseDuration.value ∧
        Renewed db (judgeRenewLease command db).2 e a x.value command.now.value := by
  unfold judgeRenewLease at h ⊢
  rcases transact_cases (renewTransaction command db) (fun directive _ => .ok directive) db with
    ⟨e, -, heq⟩ | ⟨directive, next, hok, heq⟩
  · rw [heq] at h
    cases h
  · rw [heq] at h ⊢
    obtain rfl := Except.ok.inj h
    rcases renewTransaction_spec hok with
      ⟨hcancel, -⟩ | ⟨e, a, expiresAt, hcontinue, hid, hholds, hexpires, hrenewed⟩
    · cases hcancel
    · obtain rfl := JudgeRenewDirective.continue.inj hcontinue
      exact ⟨e, a, hid, hholds, hexpires, hrenewed⟩

/-- A renewal that is told to continue holds the lease from then on. -/
theorem held_of_renew {context : NodeContext} {since now : Nat} {x : UnixMillis}
    (hheld : context.Held lease since db)
    (h : context.plane.renew lease now db = (.ok (.continue x), db')) :
    context.Held lease now db' := by
  obtain ⟨time, rfl, hanswer, rfl⟩ := atTime_eq_ok h
  obtain ⟨e, a, hid, ⟨hattempt, hnode, htoken⟩, hexpires, hrenewed⟩ := judgeRenewLease_spec hanswer
  obtain ⟨t, htriple⟩ := hrenewed.triple (coupled_of_reachable hheld.reachable).linked
  refine ⟨hheld.reachable.next (.judgeRenewLease (context.renewCommand lease time)),
    hheld.nodeId, hheld.leaseToken, _, _, _, (hrenewed.rewritten htriple).triple', hid, ?_, ?_, ?_⟩
  · exact htriple.attemptId.symm.trans hattempt
  · exact hnode.trans (congrArg some hheld.nodeId.symm)
  · refine .inr ⟨hrenewed.evaluationLeased, htoken, _, rfl, ?_⟩
    rw [hexpires]
    exact Int.le_refl _

/-! ### Submissions -/

/-- Reporting on an evaluation is never refused as stale. -/
theorem evaluationStatus_ne_stale (id : EvaluationId) :
    evaluationStatus db id ≠ .error .staleLease := by
  intro h
  simp only [evaluationStatus, snapshot, bind_eq_error, orRefuse_eq_error, reportAs_eq_error,
    refuseIf_eq_error, reduceCtorEq, and_false, false_or] at h
  obtain ⟨_, -, _, -, _, -, _, -, h⟩ := h
  cases h

omit [Wire] in
/-- Neither is a terminal write. -/
theorem writeTerminal_ne_stale (write : TerminalWrite) :
    writeTerminal write db ≠ .error .staleLease := by
  intro h
  simp only [writeTerminal, bind_eq_error, translate_eq_error, reportAs_eq_error, reduceCtorEq,
    and_false, exists_false, or_false] at h
  obtain ⟨violation, -, hstale⟩ := h
  cases violation <;> cases hstale

omit [Wire] in
/-- Neither is the comparison with a stored result, and it goes on to the lease only when there is
none. -/
theorem storedResult_ended {e : EvaluationRow} {key : IdempotencyKey} {payload : List UInt8}
    (h : e.terminalResult.isSome = true) :
    storedResult e key payload = .ok true ∨ ∃ error, storedResult e key payload = .error error ∧
      error ≠ .staleLease := by
  obtain ⟨stored, hstored⟩ := Option.isSome_iff_exists.mp h
  simp only [storedResult, hstored]
  by_cases hkey : e.resultIdempotencyKey = some key
  · rw [if_pos hkey]
    by_cases hsame : stored = payload
    · exact .inl (by rw [refuseIf_neg (not_not.mpr hsame)]; rfl)
    · exact .inr ⟨.idempotencyConflict, by rw [refuseIf_pos hsame]; rfl, by simp⟩
  · rw [if_neg hkey]
    exact .inr ⟨.terminalConflict, rfl, by simp⟩

/-- **A submission on a lease** that has not expired is not refused as stale. -/
theorem submitTransaction_ne_stale (hc : Coupled db) {command : SubmitResult} {e : EvaluationRow}
    {a : AttemptRow} {t : TaskRow} (h : OnLease db lease expiry e a t)
    (hid : command.result.identity.evaluationId = lease.request.evaluationId)
    (hattempt : command.result.identity.attemptId = lease.request.attemptId)
    (htoken : command.leaseToken = lease.leaseToken) (hnow : (command.now.value : Int) ≤ expiry) :
    submitTransaction command db ≠ .error .staleLease := by
  intro hstale
  have hcoupled := hc.of_triple h.triple
  have hcurrent : db.current? command.result.identity.evaluationId = some (e, a) := by
    rw [hid, ← h.evaluationId]
    exact h.triple.current?
  rcases ok_or_error (encodeEvaluationResult command.result) with ⟨payload, hencode⟩ | ⟨_, hencode⟩
  -- a result that cannot be encoded is refused before
  swap
  · simp [submitTransaction, hencode] at hstale
  simp only [submitTransaction, hencode, reportAs_ok, ok_bind, toI64_unixMillis, orRefuse_some,
    hcurrent] at hstale
  rcases h.held with hended | ⟨hleased, htoken', x, hexpiry, hle⟩
  · -- an ended evaluation has a stored result
    have hsome : e.terminalResult.isSome = true := hcoupled.result.trans hended
    rcases @storedResult_ended e command.idempotencyKey payload hsome with
      hstored | ⟨error, hstored, hne⟩
    · rw [hstored] at hstale
      cases hstale
    · rw [hstored] at hstale
      exact hne (Except.error.inj hstale)
  · have hresult : e.terminalResult = none := by
      have hsome := hcoupled.result
      rw [hleased] at hsome
      exact Option.not_isSome_iff_eq_none.mp (by simp [hsome, EvaluationState.isTerminal])
    have hstored : storedResult e command.idempotencyKey payload = .ok false :=
      storedResult_eq_ok.mpr (.inl ⟨rfl, hresult⟩)
    -- the three comparisons with the lease come out equal
    have hcurrent' : ¬(e.state ≠ .leased ∨ a.state ≠ .leased ∨
        e.currentAttemptId ≠ command.result.identity.attemptId) := by
      rw [hleased, hcoupled.attempt_leased hleased, h.attemptId, hattempt]
      simp
    have htoken'' : ¬lease.leaseToken ≠ command.leaseToken := not_not.mpr htoken.symm
    have hlive : ¬x < (command.now.value : Int) := Int.not_lt.mpr (Int.le_trans hnow hle)
    simp only [hstored, ok_bind, Bool.false_eq_true, if_false, refuseIf_neg hcurrent', htoken',
      orRefuse_some, refuseIf_neg htoken'', hexpiry, refuseIf_neg hlive] at hstale
    simp only [bind_eq_error, reportAs_eq_error, refuseIf_eq_error, reduceCtorEq, and_false,
      false_or] at hstale
    obtain ⟨_, -, _, -, hwrite | ⟨_, -, hpure⟩⟩ := hstale
    · exact writeTerminal_ne_stale _ hwrite
    · cases hpure

/-- A node's result for its lease is not refused as stale before the lease ends. -/
theorem judgeSubmitResult_ne_stale (hc : Coupled db) {command : JudgeSubmitResult}
    (h : HeldUntil db lease expiry) (hnode : command.nodeId = lease.nodeId)
    (hidentity : command.result.identity = EvaluationIdentity.fromRequest lease.request)
    (htoken : command.leaseToken = lease.leaseToken) (hnow : (command.now.value : Int) ≤ expiry) :
    (judgeSubmitResult command db).1 ≠ .error .staleLease := by
  obtain ⟨e, a, t, h⟩ := h
  have hid : command.result.identity.evaluationId = lease.request.evaluationId := by
    rw [hidentity]
    rfl
  have hattempt : command.result.identity.attemptId = lease.request.attemptId := by
    rw [hidentity]
    rfl
  -- the node is the owner, so the submission comes to its transaction
  have howner : ownerOf command.result.identity.evaluationId db = .ok (some command.nodeId) := by
    rw [hid, ← h.evaluationId, hnode]
    simp only [ownerOf, h.triple.current?, h.nodeId, orRefuse_some, ok_bind]
    rfl
  intro hstale
  unfold judgeSubmitResult at hstale
  cases hprepare : judgeSubmitPrepare command db with
  | error error =>
    rw [hprepare] at hstale
    obtain rfl : error = .staleLease := by simpa using hstale
    simp only [judgeSubmitPrepare, howner, bind_eq_error, refuseIf_eq_error, reportAs_eq_error,
      reduceCtorEq, and_false, false_or, Except.ok.injEq, exists_eq_left', ne_eq, not_true_eq_false,
      false_and] at hprepare
    obtain ⟨_, -, _, -, _, -, hpure⟩ := hprepare
    cases hpure
  | ok submission =>
    rw [hprepare] at hstale
    simp only [judgeSubmitPrepare, bind_eq_ok, pure, Except.pure, Except.ok.injEq] at hprepare
    obtain ⟨_, -, _, -, _, -, key, -, rfl⟩ := hprepare
    simp only [submitResult] at hstale
    rcases transact_cases (submitTransaction (command.submitResult key) db)
      (fun id db => evaluationStatus db id) db with ⟨error, herror, heq⟩ | ⟨id, next, -, heq⟩
    · rw [heq] at hstale
      obtain rfl : error = .staleLease := by simpa using hstale
      exact submitTransaction_ne_stale hc h hid hattempt htoken hnow herror
    · rw [heq] at hstale
      exact evaluationStatus_ne_stale id hstale

/-- A node's result for its lease is refused as stale once the lease has ended. -/
theorem judgeSubmitResult_expired (hc : Coupled db) {command : JudgeSubmitResult}
    {payload : List UInt8} {e : EvaluationRow} {a : AttemptRow} {t : TaskRow}
    (htriple : Triple db e a t) (hid : command.result.identity.evaluationId = e.evaluationId)
    (hleased : e.state = .leased)
    (hprovenance : command.result.provenance.nodeId = some command.nodeId)
    (hnode : a.nodeId = some command.nodeId)
    (hencode : encodeEvaluationResult command.result = .ok payload)
    (hexpiry : a.leaseExpiresAtMs = some expiry) (hlt : expiry < command.now.value) :
    judgeSubmitResult command db = (.error .staleLease, db) := by
  have hcoupled := hc.of_triple htriple
  have hcurrent : db.current? command.result.identity.evaluationId = some (e, a) := by
    rw [hid]
    exact htriple.current?
  obtain ⟨key, hkey⟩ := parse_resultOperationId command.operationId
  have howner : ownerOf command.result.identity.evaluationId db = .ok (some command.nodeId) := by
    simp only [ownerOf, hcurrent, hnode, orRefuse_some, ok_bind]
    rfl
  have hsame : ¬(some command.nodeId : Option NodeId) ≠ some command.nodeId := not_not.mpr rfl
  have hprepare : judgeSubmitPrepare command db = .ok (command.submitResult key) := by
    simp only [judgeSubmitPrepare, refuseIf_neg (not_not.mpr hprovenance), ok_bind, howner,
      refuseIf_neg hsame, hkey, reportAs_ok]
    rfl
  have hresult : e.terminalResult = none := by
    have hsome := hcoupled.result
    rw [hleased] at hsome
    exact Option.not_isSome_iff_eq_none.mp (by simp [hsome, EvaluationState.isTerminal])
  have hstored : storedResult e key payload = .ok false :=
    storedResult_eq_ok.mpr (.inl ⟨rfl, hresult⟩)
  obtain ⟨leaseToken, htoken⟩ := Option.isSome_iff_exists.mp
    (hcoupled.leased a htriple.attemptOf (hcoupled.attempt_leased hleased)).2.1
  have hstale : submitTransaction (command.submitResult key) db = .error .staleLease := by
    simp only [submitTransaction, JudgeSubmitResult.submitResult, hencode, reportAs_ok, ok_bind,
      toI64_unixMillis, orRefuse_some, hcurrent, hstored, Bool.false_eq_true, if_false, htoken,
      hexpiry, refuseIf_pos hlt, error_bind]
    -- whichever comparison fails first, the refusal is the same one
    refine bind_eq_error.mpr ?_
    by_cases hcurrent' : e.state ≠ .leased ∨ a.state ≠ .leased ∨
        e.currentAttemptId ≠ command.result.identity.attemptId
    · exact .inl (refuseIf_eq_error.mpr ⟨hcurrent', rfl⟩)
    · refine .inr ⟨(), refuseIf_neg hcurrent', bind_eq_error.mpr ?_⟩
      by_cases hmine : leaseToken ≠ command.leaseToken
      · exact .inl (refuseIf_eq_error.mpr ⟨hmine, rfl⟩)
      · exact .inr ⟨(), refuseIf_neg hmine, rfl⟩
  rw [judgeSubmitResult, hprepare]
  simp only [submitResult, hstale, transact_error]

/-- What others may call before a call is handled: nothing that presents the node's token, and no
recovery as of a later time. -/
structure Elsewhere (leaseToken : LeaseToken) (now : Nat) (ops : List Operation) : Prop where
  foreign : ∀ op ∈ ops, ¬op.Presents leaseToken
  times : ∀ op ∈ ops, ∀ time, op.recoveryTime? = some time → time.value ≤ now

/-- **The store keeps leases**, whatever calls of others come in between. -/
theorem store_leases {context : NodeContext} {setting : Setting Database}
    (hplane : setting.plane = context.plane)
    (hmeanwhile : ∀ call now db, ∃ ops, setting.meanwhile call now db = store.runFrom db ops ∧
      Elsewhere context.leaseToken now ops) :
    setting.Leases context.policy FreshOperation context.Held where
  claim operationId now db lease db' hfresh h := held_of_claim hfresh (hplane ▸ h)
  renew lease since now db x db' hheld _ _ h := held_of_renew hheld (hplane ▸ h)
  meanwhile call lease since now db hheld _ hle := by
    obtain ⟨ops, heq, hforeign, htimes⟩ := hmeanwhile call now db
    rw [heq]
    refine ⟨hheld.reachable.runFrom ops, hheld.nodeId, hheld.leaseToken,
      hheld.held.runFrom hheld.reachable (hheld.leaseToken ▸ hforeign) fun op hop time htime => ?_⟩
    exact Int.ofNat_le.mpr (Nat.le_trans (htimes op hop time htime) hle)
  submit lease operationId result since now db hheld _ hle hidentity hstale := by
    rw [hplane] at hstale
    obtain ⟨time, rfl, hanswer⟩ := atTime_eq_error hstale (by simp)
    have hnot : (judgeSubmitResult (context.submitCommand lease operationId result time) db).1 ≠
        .error .staleLease :=
      judgeSubmitResult_ne_stale (coupled_of_reachable hheld.reachable) hheld.held
        hheld.nodeId.symm hidentity rfl (Int.ofNat_le.mpr hle)
    rcases ok_or_error (judgeSubmitResult (context.submitCommand lease operationId result time)
      db).1 with ⟨snapshot, hok⟩ | ⟨e, herror⟩
    · rw [hok] at hanswer
      cases hanswer
    · rw [herror] at hanswer
      exact hnot (herror.trans (congrArg _ (Except.error.inj hanswer)))

end Store

/-! ### Kept leases -/

namespace Setting

variable {σ : Type} {setting : Setting σ} {policy : LeasePolicy}
  {claimOperationId : ClaimOperationId} {resultOperationId : ResultOperationId} {w : Clocked σ}

/-- **A lease is kept exactly in a timely run.** -/
theorem keepsLease_iff {Fresh : ClaimOperationId → σ → Prop} {Held : TaskLease → Nat → σ → Prop}
    (hleases : setting.Leases policy Fresh Held)
    (hfresh : Fresh claimOperationId (setting.meanwhile .claim (setting.claimedAt w) w.plane))
    (hw : w.calls = []) :
    setting.KeepsLease policy claimOperationId resultOperationId w ↔
      setting.Timely policy claimOperationId w := by
  by_cases hclaim : ∃ lease, (setting.claimed claimOperationId w).1 = .ok (.lease lease)
  · obtain ⟨lease, hclaim⟩ := hclaim
    have hlease : ∀ lease', (setting.claimed claimOperationId w).1 = .ok (.lease lease') →
        lease' = lease := by
      intro lease' h
      simpa using h.symm.trans hclaim
    -- up to the renewal, the run has made these calls
    have hpair : Unbroken policy
        (w.calls ++ [(.claim, setting.claimedAt w)] ++ [(.renew, setting.renewedAt w)]) ↔
          setting.back .claim + setting.out .renew ≤ policy.leaseDuration.value := by
      rw [hw]
      exact unbroken_pair.trans renewedAt_le_iff
    have hunsubmitted : ∀ now, (ControlCall.submit, now) ∉
        w.calls ++ [(.claim, setting.claimedAt w)] ++ [(.renew, setting.renewedAt w)] := by
      simp [hw]
    by_cases hrenew : ∃ x, (setting.renewed claimOperationId w lease).1 = .ok (.continue x)
    · obtain ⟨x, hrenew⟩ := hrenew
      rcases ok_or_error (setting.execute lease.request) with ⟨result, hexecute⟩ | ⟨e, hexecute⟩
      · rw [keepsLease_of_submitted hleases hfresh hw hclaim hrenew hexecute, renewedAt_le_iff,
          submittedAt_le_iff]
        constructor
        · rintro ⟨hfirst, hsecond⟩ lease' hclaim'
          obtain rfl := hlease lease' hclaim'
          exact ⟨hfirst, fun _ _ _ _ => hsecond⟩
        · intro htimely
          obtain ⟨hfirst, hsecond⟩ := htimely lease hclaim
          exact ⟨hfirst, hsecond x hrenew result hexecute⟩
      · rw [keepsLease_of_unsubmitted (run_unexecuted hclaim hrenew hexecute) hunsubmitted, hpair]
        constructor
        · intro hfirst lease' hclaim'
          obtain rfl := hlease lease' hclaim'
          refine ⟨hfirst, fun _ _ result hresult => ?_⟩
          rw [hexecute] at hresult
          cases hresult
        · exact fun htimely => (htimely lease hclaim).1
    · have hrenew' : ∀ x, (setting.renewed claimOperationId w lease).1 ≠ .ok (.continue x) :=
        fun x hx => hrenew ⟨x, hx⟩
      rw [keepsLease_of_unsubmitted (run_unrenewed hclaim hrenew') hunsubmitted, hpair]
      constructor
      · intro hfirst lease' hclaim'
        obtain rfl := hlease lease' hclaim'
        exact ⟨hfirst, fun x hx => absurd hx (hrenew' x)⟩
      · exact fun htimely => (htimely lease hclaim).1
  · have hclaim' : ∀ lease, (setting.claimed claimOperationId w).1 ≠ .ok (.lease lease) :=
      fun lease h => hclaim ⟨lease, h⟩
    rw [keepsLease_of_unsubmitted (run_unclaimed hclaim') (by simp [hw])]
    refine iff_of_true ?_ fun lease h => absurd h (hclaim' lease)
    rw [hw]
    exact List.IsChain.singleton _

end Setting

section Json

attribute [local instance] jsonWire

/-- The node of the fixture's claim, which declares what the fixture requires. -/
def fixtureContext : NodeContext where
  nodeId := fixtureClaim.nodeId
  capabilities := fixtureRequest.requiredCapabilities
  leaseToken := fixtureClaim.leaseToken
  policy := fixtureLeasePolicy
  locked _ := false

/-- A result of that node. -/
def nodeResult : EvaluationResult where
  toEvaluationResultParts := { fixtureCancellation with
    provenance := { fixtureCancellation.provenance with
      nodeId := some fixtureClaim.nodeId
      named := fun h => Bool.false_ne_true h.1 } }
  valid := by decide +kernel

/-- The node alone at the store, with calls that take no time and an executor that takes
`duration`. -/
def fixtureSetting (duration : Nat) : Setting Database where
  plane := fixtureContext.plane
  meanwhile _ _ db := db
  out _ := 0
  back _ := 0
  execute request :=
    if request = fixtureRequest then .ok nodeResult else .error .unsupportedCapability
  duration _ := duration
  identified request result h := by
    split at h
    · rename_i hrequest
      obtain rfl := Except.ok.inj h
      rw [hrequest]
      rfl
    · cases h

def fixtureResultOperation : ResultOperationId := ⟨"result_01", by decide +kernel⟩

/-- Through plain JSON, the node's result is encoded. -/
private theorem exists_encode_nodeResult :
    ∃ payload, encodeEvaluationResult nodeResult = .ok payload := by
  have hsemantics : validateResultSemantics (resultToValue nodeResult) = .ok () := by
    decide +kernel
  have hschema : Schema.openEvaluationMessage (resultToValue nodeResult) = true := by
    decide +kernel
  have hbound : Json.sizeBound (resultToValue nodeResult) ≤ maxEvaluationResultBytes := by
    decide +kernel
  exact ⟨_, bind_eq_ok.mpr ⟨(), hsemantics, encodeWire_eq_ok.mpr
    ⟨hschema, ⟨_, rfl, rfl⟩, Nat.le_trans (Json.length_toBytes_le _) hbound⟩⟩⟩

/-- The fixture's node keeps to itself. -/
private theorem fixture_leases (duration : Nat) :
    (fixtureSetting duration).Leases fixtureLeasePolicy FreshOperation fixtureContext.Held := by
  have hleases : (fixtureSetting duration).Leases fixtureContext.policy FreshOperation
      fixtureContext.Held := by
    refine store_leases rfl fun call now db => ⟨[], rfl, ?_, ?_⟩
    · intro op hop
      cases hop
    · intro op hop
      cases hop
  exact hleases

/-- The store with the fixture in its queue, a second later. -/
private theorem exists_queued_fixture :
    ∃ payload db, FreshOperation fixtureClaimOperation db ∧
      encodeEvaluationRequest fixtureRequest = .ok payload ∧
        Created .empty db fixtureRequest payload 0 ∧
          IsOldest db (some (fixtureContext.capabilities.map (·.value)))
            (taskRow fixtureRequest 0) := by
  have hdeclared : ∀ capabilities ∈ some (fixtureContext.capabilities.map (·.value)),
      (taskRow fixtureRequest (⟨0, by decide⟩ : UnixMillis).value).requiredCapabilities ⊆
        capabilities := by
    intro capabilities hmem
    obtain rfl := Option.some.inj hmem
    exact List.Subset.refl _
  obtain ⟨payload, db, hrun, hpayload, hcreated, ht, hnone⟩ :=
    exists_oldest_fixture ⟨0, by decide⟩ hdeclared
  refine ⟨payload, db, ⟨⟨_, hrun⟩, fun a ha => ?_⟩, hpayload, hcreated, ht⟩
  rw [hnone a ha]
  rintro ⟨⟩

/-- An execution of half a second is within the lease of a second. -/
theorem keepsLease_iff_fixture :
    ∃ db, store.Reachable db ∧
      (fixtureSetting 500).KeepsLease fixtureLeasePolicy fixtureClaimOperation
        fixtureResultOperation ⟨1000, [], db⟩ := by
  obtain ⟨payload, db, hfresh, -⟩ := exists_queued_fixture
  refine ⟨db, hfresh.1, (Setting.keepsLease_iff (fixture_leases 500) hfresh rfl).mpr ?_⟩
  intro lease _
  exact ⟨by decide, fun _ _ _ _ => (by decide : 0 + 500 + 0 ≤ 1000)⟩

/-- The fixture's node claims it and is told to continue, as of the same time. -/
private theorem exists_renewed_fixture :
    ∃ db db₁ db₂ lease x e a t, store.Reachable db ∧
      fixtureContext.plane.claim fixtureClaimOperation fixtureClaim.now.value db =
        (.ok (.lease lease), db₁) ∧ lease.request = fixtureRequest ∧
          fixtureContext.plane.renew lease fixtureClaim.now.value db₁ = (.ok (.continue x), db₂) ∧
            store.Reachable db₂ ∧ Triple db₂ e a t ∧
              e.evaluationId = fixtureRequest.evaluationId ∧ e.state = .leased ∧
                a.nodeId = some fixtureClaim.nodeId ∧ a.leaseExpiresAtMs = some 2000 := by
  obtain ⟨payload, db, hfresh, hpayload, hcreated, ht⟩ := exists_queued_fixture
  obtain ⟨hr, hnone⟩ := hfresh
  have hl : LosslessRequests := WireType.json_lossless _
  have hexpires : fixtureClaim.now.checkedAdd fixtureClaim.leaseDuration = .ok ⟨2000, by decide⟩ :=
    UnixMillis.checkedAdd_eq_ok.mpr rfl
  have hadmits : fixtureClaim.Admits db (some fixtureClaimOperation) (taskRow fixtureRequest 0) :=
    ⟨by decide, fun s hs _ hsame => absurd hsame (hnone s hs)⟩
  obtain ⟨lease, db₁, hclaim, e, a, hgranted, hclaimed⟩ := claim_leases (coupled_of_reachable hr)
    (legible_of_reachable hl hr) (timed_of_reachable hr) hexpires ht hadmits
  -- the queued attempt was that of the fixture
  obtain ⟨rfl, rfl, -⟩ : e = _ ∧ a = _ ∧ _ := by
    rcases hcreated.triple_cases hclaimed.triple with h | h
    · exact h
    · cases h.evaluation
  have hrequest : lease.request = fixtureRequest :=
    Except.ok.inj (hgranted.request.symm.trans (decode_of_encode hl hpayload))
  have hreplay :
      claimReplay (fixtureContext.claimCommand fixtureClaimOperation fixtureClaim.now) db =
        .ok none := claimReplay_eq_none.mpr hnone
  have hjudge : judgeClaimTask (fixtureContext.claimCommand fixtureClaimOperation fixtureClaim.now)
      fixtureContext.locked db = (.ok lease, db₁) := by
    rw [judgeClaimTask, hreplay]
    exact hclaim
  have hr₁ := hr.next (.judgeClaimTask
    (fixtureContext.claimCommand fixtureClaimOperation fixtureClaim.now) fixtureContext.locked)
  rw [next_judgeClaimTask, hjudge] at hr₁
  -- the renewal comes from the holder
  have htriple := hclaimed.rewritten.triple'
  have hholds : (fixtureContext.renewCommand lease fixtureClaim.now).Holds
      ((attemptRow fixtureRequest payload 0).claim fixtureClaim.nodeId fixtureClaim.leaseToken
        lease.expiresAt.value (some fixtureClaimOperation) fixtureClaim.now.value) :=
    ⟨congrArg (·.attemptId) hrequest.symm, rfl, congrArg some hgranted.leaseToken.symm⟩
  have hcurrent : db₁.current? (fixtureContext.renewCommand lease fixtureClaim.now).evaluationId =
      some (_, _) := (congrArg (fun request => db₁.current? request.evaluationId) hrequest).trans
        htriple.current?
  have hrenew : (judgeRenewLease (fixtureContext.renewCommand lease fixtureClaim.now) db₁).1 =
      .ok (.continue ⟨2000, by decide⟩) :=
    judgeRenewLease_holder (coupled_of_reachable hr₁) hexpires hcurrent rfl hholds
      (by decide : (0 : Int) ≤ 1000)
  obtain ⟨f, b, hfid, ⟨-, hbnode, -⟩, -, hrenewed⟩ := judgeRenewLease_spec hrenew
  obtain ⟨s, hftriple⟩ := hrenewed.triple (coupled_of_reachable hr₁).linked
  have hr₂ := hr₁.next (.judgeRenewLease (fixtureContext.renewCommand lease fixtureClaim.now))
  rw [next_judgeRenewLease] at hr₂
  have hfid' : f.evaluationId = fixtureRequest.evaluationId := by
    rw [hfid, ← hrequest]
    rfl
  refine ⟨db, db₁, (judgeRenewLease (fixtureContext.renewCommand lease fixtureClaim.now) db₁).2,
    lease, ⟨2000, by decide⟩, f, b.renew 2000 fixtureClaim.now.value, s, hr, ?_, hrequest, ?_, hr₂,
    (hrenewed.rewritten hftriple).triple', hfid', hrenewed.evaluationLeased,
    hbnode, rfl⟩
  · rw [NodeContext.claim_value, hjudge, workerClaim]
  · rw [NodeContext.renew_value, ← hrenew]

/-- An execution of four seconds is not: the store refuses the result, whose lease of a second
has ended. -/
theorem slowExecution_stale :
    ∃ db, store.Reachable db ∧
      ((fixtureSetting 4000).run fixtureClaimOperation fixtureResultOperation
        ⟨1000, [], db⟩).2.calls = [(.claim, 1000), (.renew, 1000), (.submit, 5000)] ∧
      ((fixtureSetting 4000).run fixtureClaimOperation fixtureResultOperation ⟨1000, [], db⟩).1 =
        .error (.store .staleLease) ∧
      ¬(fixtureSetting 4000).KeepsLease fixtureLeasePolicy fixtureClaimOperation
        fixtureResultOperation ⟨1000, [], db⟩ := by
  obtain ⟨db, db₁, db₂, lease, x, e, a, t, hr, hclaim, hrequest, hrenew, hr₂, htriple, hid,
    hleased, hnode, hexpiry⟩ := exists_renewed_fixture
  have hclaimed : (fixtureSetting 4000).claimed fixtureClaimOperation ⟨1000, [], db⟩ =
      (.ok (.lease lease), db₁) := hclaim
  have hrenewed : (fixtureSetting 4000).renewed fixtureClaimOperation ⟨1000, [], db⟩ lease =
      (.ok (.continue x), db₂) := by
    rw [Setting.renewed, hclaimed]
    exact hrenew
  have hexecute : (fixtureSetting 4000).execute lease.request = .ok nodeResult := if_pos hrequest
  obtain ⟨payload, hencode⟩ := exists_encode_nodeResult
  -- the renewed lease ends at 2000, and the result arrives at 5000
  have hstale : judgeSubmitResult (fixtureContext.submitCommand lease fixtureResultOperation
      nodeResult fixtureLate) db₂ = (.error .staleLease, db₂) :=
    judgeSubmitResult_expired (coupled_of_reachable hr₂) htriple hid.symm hleased rfl hnode hencode
      hexpiry (by decide : (2000 : Int) < 5000)
  have hsubmitted : (fixtureSetting 4000).submitted fixtureClaimOperation fixtureResultOperation
      ⟨1000, [], db⟩ lease nodeResult = (.error .staleLease, db₂) := by
    have htime : (fixtureSetting 4000).submittedAt ⟨1000, [], db⟩ lease.request =
        fixtureLate.value := rfl
    rw [Setting.submitted, hrenewed, htime]
    exact NodeContext.submit_stale hstale
  have hrun : ((fixtureSetting 4000).run fixtureClaimOperation fixtureResultOperation
      ⟨1000, [], db⟩).2.calls = [(.claim, 1000), (.renew, 1000), (.submit, 5000)] ∧ _ :=
    Setting.run_submitted (congrArg Prod.fst hclaimed) (congrArg Prod.fst hrenewed) hexecute
  obtain ⟨hcalls, hanswer⟩ := hrun
  rw [hsubmitted] at hanswer
  refine ⟨db, hr, hcalls, hanswer, fun hkeeps => ?_⟩
  have hunbroken := hkeeps.unbroken
  rw [hcalls] at hunbroken
  exact absurd (Setting.unbroken_triple.mp hunbroken).2 (by decide)

end Json
end OpenOJ
