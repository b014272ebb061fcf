import OpenOJ.Storage.Effect

/-!
# Specifications of the transactions

For each transaction, what it takes to commit and what it leaves: one lemma each, by inversion of
its code. A transaction either replays and writes nothing, or has exactly one effect on the rows it
names.

* `createTransaction_spec`: a creation replays an earlier one, or creates the request's evaluation;
* `claimTransaction_spec`: a claim leases the first claimable task, and answers its lease
  (`Granted`);
* `renewTransaction_spec`: a renewal tells of a cancellation, or moves the expiry of the lease that
  the command holds (`JudgeRenew.Holds`);
* `retryTransaction_spec`: a retry replays an earlier one, or replaces the expired attempt of its
  evaluation;
* `submitTransaction_spec`: a submission replays the stored result, or is fenced by the current
  lease (`Fenced`) and finishes the evaluation;
* `cancelTransaction_spec`: a cancellation replays the stored result, or finishes an open
  evaluation.

The lemmas before them take the parts of the transactions in turn (`createWrite_spec`,
`retryWrite_spec`, `replaceAttempt_spec`); a registration of references leaves the other tables
alone (`SameSpine`).
-/

namespace OpenOJ

open Outcome

variable {db db' : Database}

/-- The evaluation of a triple is found with its attempt. -/
theorem Triple.current? {e : EvaluationRow} {a : AttemptRow} {t : TaskRow}
    (h : Triple db e a t) : db.current? e.evaluationId = some (e, a) :=
  Database.current?_eq_some.mpr ⟨h.evaluation, h.attempt⟩

/-- What a linked database finds with an evaluation is part of its triple. -/
theorem Linked.triple (hl : Linked db) {id : EvaluationId} {e : EvaluationRow} {a : AttemptRow}
    (h : db.current? id = some (e, a)) : e.evaluationId = id ∧ ∃ t, Triple db e a t := by
  obtain ⟨he, ha⟩ := Database.current?_eq_some.mp h
  have hid : e.evaluationId = id := Table.key_of_find? he
  obtain ⟨a', t, htriple⟩ := hl id e he
  obtain rfl : a' = a := Option.some.inj (htriple.attempt.symm.trans ha)
  exact ⟨hid, t, htriple⟩

/-! ### Creating -/

theorem createLookup_eq_ok {key : IdempotencyKey} {payload : List UInt8}
    {found : Option EvaluationId} (h : createLookup key payload db = .ok found) :
    (∃ row ∈ db.evaluations.rows, row.creationIdempotencyKey = key ∧
      row.initialRequest = payload ∧ found = some row.evaluationId) ∨
      (found = none ∧ ∀ row ∈ db.evaluations.rows, row.creationIdempotencyKey ≠ key) := by
  unfold createLookup at h
  split at h
  · rename_i row hrow
    simp only [bind_eq_ok, refuseIf_eq_ok, not_not, exists_const, pure, Except.pure,
      Except.ok.injEq] at h
    obtain ⟨hpayload, rfl⟩ := h
    exact .inl ⟨row, List.mem_of_find?_eq_some hrow, by simpa using List.find?_some hrow,
      hpayload, rfl⟩
  · rename_i hnone
    exact .inr ⟨(Except.ok.inj h).symm, by simpa using hnone⟩

/-- Two databases with the same evaluations, attempts and tasks. -/
def SameSpine (db db' : Database) : Prop :=
  db'.evaluations = db.evaluations ∧ db'.attempts = db.attempts ∧ db'.tasks = db.tasks

/-- Registering references leaves the evaluations, attempts and tasks alone. -/
theorem registered_sameSpine {request : EvaluationRequest} {db₁ db₂ db₃ db₄ : Database}
    (h₁ : registerArtifact request db = .ok db₁)
    (h₂ : registerProblemVersion request db₁ = .ok db₂)
    (h₃ : registerSubmission request db₂ = .ok db₃)
    (h₄ : registerRuntime request db₃ = .ok db₄) : SameSpine db db₄ := by
  simp only [registerArtifact, registerProblemVersion, registerSubmission, registerRuntime,
    bind_eq_ok, pure, Except.pure, Except.ok.injEq] at h₁ h₂ h₃ h₄
  obtain ⟨_, -, _, -, rfl⟩ := h₁
  obtain ⟨_, -, rfl⟩ := h₂
  obtain ⟨_, -, rfl⟩ := h₃
  obtain ⟨_, -, rfl⟩ := h₄
  exact ⟨rfl, rfl, rfl⟩

/-- The statements of a creation add an evaluation, queued on its first attempt. -/
theorem created_of_inserts {request : EvaluationRequest} {payload : List UInt8} {now : Int}
    {db₁ db₂ db₃ db₄ db₅ db₆ db₇ : Database} (h₁ : registerArtifact request db = .ok db₁)
    (h₂ : registerProblemVersion request db₁ = .ok db₂)
    (h₃ : registerSubmission request db₂ = .ok db₃) (h₄ : registerRuntime request db₃ = .ok db₄)
    (h₅ : db₄.insertEvaluation (evaluationRow request payload now) = .ok db₅)
    (h₆ : db₅.insertAttempt (attemptRow request payload now) = .ok db₆)
    (h₇ : db₆.insertTask (taskRow request now) = .ok db₇) :
    Created db db₇ request payload now := by
  obtain ⟨hevaluations, hattempts, htasks⟩ := registered_sameSpine h₁ h₂ h₃ h₄
  obtain ⟨hnew, hevaluations₅, hattempts₅, htasks₅, -⟩ := Database.insertEvaluation_spec h₅
  obtain ⟨hnewAttempt, hattempts₆, hevaluations₆, htasks₆, -⟩ := Database.insertAttempt_spec h₆
  obtain ⟨hnewTask, htasks₇, hevaluations₇, hattempts₇, -⟩ := Database.insertTask_spec h₇
  rw [hevaluations] at hnew hevaluations₅
  rw [hattempts₅, hattempts] at hnewAttempt hattempts₆
  rw [htasks₆, htasks₅, htasks] at hnewTask htasks₇
  exact
    { newEvaluation := hnew
      newAttempt := hnewAttempt
      newTask := hnewTask
      evaluations := by rw [hevaluations₇, hevaluations₆, hevaluations₅]; rfl
      attempts := by rw [hattempts₇, hattempts₆]; rfl
      tasks := by rw [htasks₇]; rfl }

/-- What a creation writes is a new evaluation, queued on its first attempt. -/
theorem createWrite_spec {command : CreateEvaluation} {payload : List UInt8}
    (h : createWrite command payload db = .ok db') :
    Created db db' command.request payload command.createdAt.value := by
  simp only [createWrite, bind_eq_ok, orRefuse_eq_ok, toI64_unixMillis, Option.some.injEq,
    exists_eq_left', translate_eq_ok, Database.commit_eq_ok] at h
  obtain ⟨db₁, h₁, db₂, h₂, db₃, h₃, db₄, h₄, db₅, h₅, db₆, h₆, db₇, h₇, rfl, -⟩ := h
  exact created_of_inserts h₁ h₂ h₃ h₄ h₅ h₆ h₇

/-- **Create.** A creation that commits either replays an earlier one, writing nothing, or
creates the request's evaluation. -/
theorem createTransaction_spec [Wire] {command : CreateEvaluation} {id : EvaluationId}
    (h : createTransaction command db = .ok (id, db')) :
    ∃ payload, encodeEvaluationRequest command.request = .ok payload ∧
      ((db' = db ∧ ∃ row ∈ db.evaluations.rows,
          row.creationIdempotencyKey = command.request.idempotencyKey ∧
            row.initialRequest = payload ∧ id = row.evaluationId) ∨
        (id = command.request.evaluationId ∧
          (∀ row ∈ db.evaluations.rows,
            row.creationIdempotencyKey ≠ command.request.idempotencyKey) ∧
          Created db db' command.request payload command.createdAt.value)) := by
  simp only [createTransaction, bind_eq_ok, reportAs_eq_ok] at h
  obtain ⟨payload, hpayload, found, hfound, h⟩ := h
  refine ⟨payload, hpayload, ?_⟩
  rcases createLookup_eq_ok hfound with ⟨row, hrow, hkey, hstored, rfl⟩ | ⟨rfl, hnone⟩
  · simp only [pure, Except.pure, Except.ok.injEq, Prod.mk.injEq] at h
    exact .inl ⟨h.2.symm, row, hrow, hkey, hstored, h.1.symm⟩
  · simp only [bind_eq_ok, pure, Except.pure, Except.ok.injEq, Prod.mk.injEq] at h
    obtain ⟨_, hwrite, rfl, rfl⟩ := h
    exact .inr ⟨rfl, hnone, createWrite_spec hwrite⟩

/-! ### Claiming -/

theorem mem_claimable {declared : Option (List String)} {locked : AttemptId → Bool}
    {t : TaskRow} {a : AttemptRow} {e : EvaluationRow} :
    (t, a, e) ∈ claimable declared locked db ↔
      db.tasks.find? t.attemptId = some t ∧ db.attempts.find? t.attemptId = some a ∧
        db.evaluations.find? e.evaluationId = some e ∧ e.currentAttemptId = t.attemptId ∧
          t.state = .ready ∧ a.state = .queued ∧ e.state = .queued ∧
            declares declared t = true ∧ locked t.attemptId = false := by
  simp only [claimable, List.bind_eq_flatMap, List.mem_flatMap, Option.mem_toList,
    List.mem_filter, decide_eq_true_eq]
  constructor
  · rintro ⟨t', ht, a', ha, e', ⟨he, hcurrent⟩, h⟩
    split at h
    · rename_i hguard
      obtain ⟨rfl, rfl, rfl⟩ : t = t' ∧ a = a' ∧ e = e' := by simpa using h
      have hkey : a.attemptId = t.attemptId := Table.key_of_find? ha
      exact ⟨Table.mem_rows.mp ht, ha, Table.mem_rows.mp he, hcurrent.trans hkey, hguard⟩
    · cases h
  · rintro ⟨ht, ha, he, hcurrent, hguard⟩
    have hkey : a.attemptId = t.attemptId := Table.key_of_find? ha
    refine ⟨t, Table.mem_of_find? ht, a, ha, e,
      ⟨Table.mem_of_find? he, hcurrent.trans hkey.symm⟩, ?_⟩
    rw [if_pos hguard]
    exact List.mem_singleton.mpr rfl

/-- What a claim selects is a ready task of a queued evaluation. -/
theorem Linked.triple_of_claimable (hl : Linked db) {declared : Option (List String)}
    {locked : AttemptId → Bool} {t : TaskRow} {a : AttemptRow} {e : EvaluationRow}
    (h : (t, a, e) ∈ claimable declared locked db) :
    Triple db e a t ∧ e.currentAttemptId = t.attemptId ∧ t.state = .ready ∧
      a.state = .queued ∧ e.state = .queued := by
  obtain ⟨ht, ha, he, hcurrent, hready, hqueued, hequeued, -, -⟩ := mem_claimable.mp h
  obtain ⟨a', t', htriple⟩ := hl _ _ he
  rw [← hcurrent] at ht ha
  obtain rfl : a' = a := Option.some.inj (htriple.attempt.symm.trans ha)
  obtain rfl : t' = t := Option.some.inj (htriple.task.symm.trans ht)
  exact ⟨htriple, hcurrent, hready, hqueued, hequeued⟩

/-- What a lease says of the attempt it was granted for. -/
structure Granted (command : ClaimTask) (a : AttemptRow) (lease : TaskLease) [Wire] : Prop where
  request : decodeEvaluationRequest a.requestPayload = .ok lease.request
  names : lease.request.Names a
  nodeId : lease.nodeId = command.nodeId
  leaseToken : lease.leaseToken = command.leaseToken
  expiresAt : lease.expiresAt.value = command.now.value + command.leaseDuration.value

/-- **Claim.** A claim that commits leases the first claimable task and answers its lease. -/
theorem claimTransaction_spec [Wire] (hl : Linked db) {command : ClaimTask}
    {operationId : Option ClaimOperationId} {capabilities : Option (List String)}
    {locked : AttemptId → Bool} {lease : TaskLease}
    (h : claimTransaction command operationId capabilities locked db = .ok (lease, db')) :
    ∃ e a t, nextClaimable capabilities locked db = some (t, a, e) ∧
      Granted command a lease ∧
        Claimed db db' e a t command.nodeId command.leaseToken lease.expiresAt.value
          operationId command.now.value := by
  simp only [claimTransaction, bind_eq_ok, reportAs_eq_ok, orRefuse_eq_ok,
    UnixMillis.checkedAdd_eq_ok, toI64_unixMillis, refuseIf_eq_ok, not_not, exists_const,
    Option.some.injEq, pure, Except.pure, Except.ok.injEq, Prod.mk.injEq] at h
  obtain ⟨expiresAt, hexpires, _, rfl, _, rfl, ⟨t, a, e⟩, hnext, request, hdecode, hnames,
    db₁, h₁, db₂, h₂, db₃, h₃, rfl, rfl⟩ := h
  obtain ⟨htriple, hcurrent, hready, hqueued, hequeued⟩ :=
    hl.triple_of_claimable (List.argmin_mem hnext)
  simp only [← hcurrent, htriple.owned] at h₁ h₂ h₃
  obtain ⟨hattempts, hevaluations₁, htasks₁, hreferences₁⟩ :=
    Database.updateAttempt_spec h₁ htriple.attempt fun _ => rfl
  obtain ⟨hevaluations, hattempts₂, htasks₂, hreferences₂⟩ :=
    Database.updateEvaluation_spec h₂ (hevaluations₁ ▸ htriple.evaluation) fun _ => rfl
  obtain ⟨htasks, hevaluations₃, hattempts₃, hreferences₃⟩ :=
    Database.updateTask_spec h₃ (by rw [htasks₂, htasks₁]; exact htriple.task) fun _ => rfl
  have hduration := command.leaseDuration.valid.1
  exact ⟨e, a, t, hnext, ⟨hdecode, hnames, rfl, rfl, hexpires⟩,
    { triple := htriple
      evaluationQueued := hequeued
      attemptQueued := hqueued
      taskReady := hready
      expiry_gt := by simp only; omega
      evaluations := by rw [hevaluations₃, hevaluations, hevaluations₁]
      attempts := by rw [hattempts₃, hattempts₂, hattempts]
      tasks := by rw [htasks, htasks₂, htasks₁]
      references := by rw [hreferences₃, hreferences₂, hreferences₁] }⟩

/-! ### Renewing -/

/-- What makes a renewal command the holder's: it names the node, the attempt and the token
of the lease. -/
def JudgeRenew.Holds (command : JudgeRenew) (a : AttemptRow) : Prop :=
  a.attemptId = command.attemptId ∧ a.nodeId = some command.nodeId ∧
    a.leaseToken = some command.leaseToken

/-- **Renew.** A renewal that commits either tells of a cancellation, writing nothing, or moves
the expiry of the lease the command holds. -/
theorem renewTransaction_spec {command : JudgeRenew} {directive : JudgeRenewDirective}
    (h : renewTransaction command db = .ok (directive, db')) :
    (directive = .cancel ∧ db' = db ∧
      ∃ e a, db.current? command.evaluationId = some (e, a) ∧
        (e.state = .cancelled ∨ a.state = .cancelled)) ∨
      ∃ e a expiresAt, directive = .continue expiresAt ∧ e.evaluationId = command.evaluationId ∧
        command.Holds a ∧
          expiresAt.value = command.now.value + command.leasePolicy.leaseDuration.value ∧
            Renewed db db' e a expiresAt.value command.now.value := by
  simp only [renewTransaction, bind_eq_ok, reportAs_eq_ok, orRefuse_eq_ok,
    UnixMillis.checkedAdd_eq_ok, toI64_unixMillis, Option.some.injEq] at h
  obtain ⟨expiresAt, hexpires, _, rfl, _, rfl, ⟨e, a⟩, hcurrent, h⟩ := h
  split at h
  · -- the cancellation is told, and nothing is written
    rename_i hcancelled
    simp only [pure, Except.pure, Except.ok.injEq, Prod.mk.injEq] at h
    obtain ⟨rfl, rfl⟩ := h
    exact .inl ⟨rfl, rfl, e, a, hcurrent, hcancelled⟩
  · simp only [bind_eq_ok, orRefuse_eq_ok, reportAs_eq_ok, refuseIf_eq_ok, exists_const,
      not_or, not_not, pure, Except.pure, Except.ok.injEq, Prod.mk.injEq] at h
    obtain ⟨nodeId, hnode, leaseToken, htoken, ⟨hleased, hleased', hattempt, rfl, rfl⟩,
      db₁, h₁, rfl, rfl⟩ := h
    obtain ⟨he, ha⟩ := Database.current?_eq_some.mp hcurrent
    have hid : e.evaluationId = command.evaluationId := Table.key_of_find? he
    have haid : a.attemptId = e.currentAttemptId := Table.key_of_find? ha
    rw [← hattempt] at h₁
    obtain ⟨hattempts, hevaluations, htasks, hreferences⟩ :=
      Database.updateAttempt_spec h₁ ha fun _ => rfl
    have hduration := command.leasePolicy.leaseDuration.valid.1
    exact .inr ⟨e, a, expiresAt, rfl, hid, ⟨haid.trans hattempt, hnode, htoken⟩, hexpires,
      { evaluation := hid ▸ he
        attempt := ha
        evaluationLeased := hleased
        attemptLeased := hleased'
        expiry_gt := by omega
        evaluations := by rw [hevaluations]
        attempts := hattempts
        tasks := by rw [htasks]
        references := hreferences }⟩

/-! ### Retrying -/

theorem retryLookup_eq_ok {key : IdempotencyKey} {payload : List UInt8}
    {found : Option EvaluationId} (h : retryLookup key payload db = .ok found) :
    (∃ row ∈ db.attempts.rows, row.attemptIdempotencyKey = key ∧ row.requestPayload = payload ∧
      found = some row.evaluationId) ∨
      (found = none ∧ ∀ row ∈ db.attempts.rows, row.attemptIdempotencyKey ≠ key) := by
  unfold retryLookup at h
  split at h
  · rename_i row hrow
    simp only [bind_eq_ok, refuseIf_eq_ok, not_not, exists_const, pure, Except.pure,
      Except.ok.injEq] at h
    obtain ⟨hpayload, rfl⟩ := h
    exact .inl ⟨row, List.mem_of_find?_eq_some hrow, by simpa using List.find?_some hrow,
      hpayload, rfl⟩
  · rename_i hnone
    exact .inr ⟨(Except.ok.inj h).symm, by simpa using hnone⟩

/-- `replace_attempt` supersedes the attempt of a leased evaluation. -/
theorem replaceAttempt_spec {e : EvaluationRow} {a : AttemptRow} {t : TaskRow}
    {request : EvaluationRequest} {payload : List UInt8} {now expiry : Int}
    (htriple : Triple db e a t) (hleased : e.state = .leased) (hleased' : a.state = .leased)
    (hexpiry : a.leaseExpiresAtMs = some expiry) (hlt : expiry < now)
    (hid : request.evaluationId = e.evaluationId)
    (hnumber : (request.attemptNumber : Int) = a.attemptNumber + 1)
    (h : replaceAttempt e.currentAttemptId request payload now db = .ok db') :
    Superseded db db' e a t request payload now := by
  simp only [replaceAttempt, bind_eq_ok, reportAs_eq_ok, translate_eq_ok, hid] at h
  obtain ⟨db₁, h₁, db₂, h₂, db₃, h₃, db₄, h₄, h₅⟩ := h
  obtain ⟨hattempts, hevaluations₁, htasks₁, hreferences₁⟩ :=
    Database.updateAttempt_spec h₁ htriple.attempt fun _ => rfl
  obtain ⟨htasks, hevaluations₂, hattempts₂, hreferences₂⟩ :=
    Database.updateTask_spec h₂ (htasks₁ ▸ htriple.task) fun _ => rfl
  obtain ⟨hevaluations, hattempts₃, htasks₃, hreferences₃⟩ :=
    Database.updateEvaluation_spec h₃
      (by rw [hevaluations₂, hevaluations₁]; exact htriple.evaluation) fun _ => rfl
  obtain ⟨hnewAttempt, hattempts₄, hevaluations₄, htasks₄, hreferences₄⟩ :=
    Database.insertAttempt_spec h₄
  obtain ⟨hnewTask, htasks₅, hevaluations₅, hattempts₅, hreferences₅⟩ :=
    Database.insertTask_spec h₅
  rw [hattempts₃, hattempts₂, hattempts] at hnewAttempt hattempts₄
  rw [htasks₄, htasks₃, htasks, htasks₁] at hnewTask htasks₅
  -- the new attempt is not the one it replaces, whose rows are still there
  have hne : request.attemptId ≠ e.currentAttemptId := by
    intro heq
    have : (Function.update db.attempts.find? e.currentAttemptId (some (a.move .expired now)))
        request.attemptId = none := hnewAttempt
    rw [heq, Function.update_self] at this
    cases this
  exact
    { triple := htriple
      evaluationLeased := hleased
      attemptLeased := hleased'
      expired := ⟨expiry, hexpiry, hlt⟩
      evaluationId_eq := hid
      number := hnumber
      newAttempt := (Function.update_of_ne hne _ _).symm.trans hnewAttempt
      newTask := (Function.update_of_ne hne _ _).symm.trans hnewTask
      evaluations := by rw [hevaluations₅, hevaluations₄, hevaluations, hevaluations₂,
        hevaluations₁]
      attempts := by rw [hattempts₅, hattempts₄]; rfl
      tasks := by rw [htasks₅]; rfl
      references := by rw [hreferences₅, hreferences₄, hreferences₃, hreferences₂,
        hreferences₁] }

/-- A retry that writes replaces the expired attempt of its evaluation. -/
theorem retryWrite_spec [Wire] (hl : Linked db) {command : RetryExpired} {payload : List UInt8}
    {now : Int} (h : retryWrite command payload now db = .ok db') :
    ∃ e a t current, decodeEvaluationRequest a.requestPayload = .ok current ∧
      sameEvaluationSemantics current command.request = true ∧
        Superseded db db' e a t command.request payload now := by
  simp only [retryWrite, bind_eq_ok, orRefuse_eq_ok, refuseIf_eq_ok, reportAs_eq_ok, not_or,
    not_not, exists_const, Database.commit_eq_ok, Bool.not_eq_false] at h
  obtain ⟨⟨e, a⟩, hcurrent, ⟨hleased, hleased'⟩, expiry, hexpiry, hlt, hnumber, current, hdecode,
    hsame, db₁, hreplace, rfl, -⟩ := h
  obtain ⟨hid, t, htriple⟩ := hl.triple hcurrent
  exact ⟨e, a, t, current, hdecode, hsame,
    replaceAttempt_spec htriple hleased hleased' hexpiry (by omega) hid.symm hnumber hreplace⟩

/-- **Retry.** A retry that commits either replays an earlier one, writing nothing, or
replaces the expired attempt of its evaluation. -/
theorem retryTransaction_spec [Wire] (hl : Linked db) {command : RetryExpired}
    {id : EvaluationId} (h : retryTransaction command db = .ok (id, db')) :
    ∃ payload, encodeEvaluationRequest command.request = .ok payload ∧
      ((db' = db ∧ ∃ row ∈ db.attempts.rows,
          row.attemptIdempotencyKey = command.request.idempotencyKey ∧
            row.requestPayload = payload ∧ id = row.evaluationId) ∨
        (id = command.request.evaluationId ∧
          (∀ row ∈ db.attempts.rows,
            row.attemptIdempotencyKey ≠ command.request.idempotencyKey) ∧
          ∃ e a t current, decodeEvaluationRequest a.requestPayload = .ok current ∧
            sameEvaluationSemantics current command.request = true ∧
              Superseded db db' e a t command.request payload command.now.value)) := by
  simp only [retryTransaction, bind_eq_ok, reportAs_eq_ok, orRefuse_eq_ok, toI64_unixMillis,
    Option.some.injEq, exists_eq_left'] at h
  obtain ⟨payload, hpayload, found, hfound, h⟩ := h
  refine ⟨payload, hpayload, ?_⟩
  rcases retryLookup_eq_ok hfound with ⟨row, hrow, hkey, hstored, rfl⟩ | ⟨rfl, hnone⟩
  · simp only [pure, Except.pure, Except.ok.injEq, Prod.mk.injEq] at h
    exact .inl ⟨h.2.symm, row, hrow, hkey, hstored, h.1.symm⟩
  · simp only [bind_eq_ok, pure, Except.pure, Except.ok.injEq, Prod.mk.injEq] at h
    obtain ⟨_, hwrite, rfl, rfl⟩ := h
    exact .inr ⟨rfl, hnone, retryWrite_spec hl hwrite⟩

/-! ### Terminal writes -/

/-- `write_terminal` finishes an open evaluation. -/
private theorem writeTerminal_spec {e : EvaluationRow} {a : AttemptRow} {t : TaskRow}
    {status : EvaluationStatus} {payload : List UInt8} {key : IdempotencyKey} {now : Int}
    (htriple : Triple db e a t) (hresult : e.terminalResult = none)
    (he : e.state = .queued ∨ e.state = .leased) (ha : a.state = .queued ∨ a.state = .leased)
    (h : writeTerminal ⟨e.evaluationId, e.currentAttemptId, status, payload, key, now⟩ db =
      .ok db') :
    Finished db db' e a t status payload key now := by
  simp only [writeTerminal, bind_eq_ok, reportAs_eq_ok, translate_eq_ok] at h
  obtain ⟨db₁, h₁, db₂, h₂, h₃⟩ := h
  obtain ⟨hevaluations, hattempts₁, htasks₁, hreferences₁⟩ :=
    Database.updateEvaluation_spec h₁ htriple.evaluation fun _ => rfl
  obtain ⟨hattempts, hevaluations₂, htasks₂, hreferences₂⟩ :=
    Database.updateAttempt_spec h₂ (hattempts₁ ▸ htriple.attempt) fun _ => rfl
  obtain ⟨htasks, hevaluations₃, hattempts₃, hreferences₃⟩ :=
    Database.updateTask_spec h₃ (by rw [htasks₂, htasks₁]; exact htriple.task) fun _ => rfl
  exact
    { triple := htriple
      unfinished := hresult
      evaluationOpen := he
      attemptOpen := ha
      evaluations := by rw [hevaluations₃, hevaluations₂, hevaluations]
      attempts := by rw [hattempts₃, hattempts, hattempts₁]
      tasks := by rw [htasks, htasks₂, htasks₁]
      references := by rw [hreferences₃, hreferences₂, hreferences₁] }

theorem storedResult_eq_ok {e : EvaluationRow} {key : IdempotencyKey} {payload : List UInt8}
    {replay : Bool} :
    storedResult e key payload = .ok replay ↔
      (replay = false ∧ e.terminalResult = none) ∨
        (replay = true ∧ e.terminalResult = some payload ∧
          e.resultIdempotencyKey = some key) := by
  unfold storedResult
  cases e.terminalResult with
  | none => simp [pure, Except.pure, eq_comm]
  | some stored =>
    simp only [reduceCtorEq, and_false, false_or, Option.some.injEq]
    split
    · rename_i hkey
      simp only [bind_eq_ok, refuseIf_eq_ok, not_not, exists_const, pure, Except.pure,
        Except.ok.injEq, hkey, and_true]
      constructor
      · rintro ⟨hpayload, hreplay⟩
        exact ⟨hreplay.symm, hpayload⟩
      · rintro ⟨hreplay, hpayload⟩
        exact ⟨hpayload, hreplay.symm⟩
    · rename_i hkey
      simp [hkey]

/-- What a submission has to present of the lease it is fenced by. -/
structure Fenced (command : SubmitResult) (e : EvaluationRow) (a : AttemptRow) : Prop where
  evaluationId : e.evaluationId = command.result.identity.evaluationId
  evaluationLeased : e.state = .leased
  attemptLeased : a.state = .leased
  attemptId : e.currentAttemptId = command.result.identity.attemptId
  leaseToken : a.leaseToken = some command.leaseToken
  live : ∃ expiry, a.leaseExpiresAtMs = some expiry ∧ (command.now.value : Int) ≤ expiry

/-- **Submit.** A submission that commits either replays the stored result, writing nothing,
or is fenced by the current lease and finishes the evaluation. -/
theorem submitTransaction_spec [Wire] (hl : Linked db) {command : SubmitResult}
    {id : EvaluationId} (h : submitTransaction command db = .ok (id, db')) :
    id = command.result.identity.evaluationId ∧
    ∃ payload, encodeEvaluationResult command.result = .ok payload ∧
      ∃ e a, db.current? command.result.identity.evaluationId = some (e, a) ∧
        ((db' = db ∧ e.terminalResult = some payload ∧
            e.resultIdempotencyKey = some command.idempotencyKey) ∨
          (Fenced command e a ∧ ∃ t, Finished db db' e a t command.result.status payload
            command.idempotencyKey command.now.value)) := by
  simp only [submitTransaction, bind_eq_ok, reportAs_eq_ok, orRefuse_eq_ok, toI64_unixMillis,
    Option.some.injEq, exists_eq_left', storedResult_eq_ok] at h
  obtain ⟨payload, hpayload, ⟨e, a⟩, hcurrent, replay, hstored, h⟩ := h
  obtain ⟨hid, t, htriple⟩ := hl.triple hcurrent
  rcases hstored with ⟨rfl, hnone⟩ | ⟨rfl, hresult, hkey⟩
  · simp only [Bool.false_eq_true, if_false, bind_eq_ok, refuseIf_eq_ok, not_or, not_not,
      orRefuse_eq_ok, reportAs_eq_ok, exists_const, pure, Except.pure, Except.ok.injEq,
      Prod.mk.injEq] at h
    obtain ⟨⟨hleased, hleased', hattempt⟩, token, htoken, rfl, expiry, hexpiry, hlive,
      request, hdecode, hidentity, db₁, hwrite, rfl, rfl⟩ := h
    rw [← hid, ← hattempt] at hwrite
    exact ⟨rfl, payload, hpayload, e, a, hcurrent, .inr
      ⟨⟨hid, hleased, hleased', hattempt, htoken, expiry, hexpiry, by omega⟩, t,
        writeTerminal_spec htriple hnone (.inr hleased) (.inr hleased') hwrite⟩⟩
  · simp only [if_true, pure, Except.pure, Except.ok.injEq, Prod.mk.injEq] at h
    exact ⟨h.1.symm, payload, hpayload, e, a, hcurrent, .inl ⟨h.2.symm, hresult, hkey⟩⟩

/-- **Cancel.** A cancellation that commits either replays the stored result, writing nothing,
or finishes an open evaluation as cancelled. -/
theorem cancelTransaction_spec [Wire] (hl : Linked db) {command : CancelEvaluation}
    {id : EvaluationId} (h : cancelTransaction command db = .ok (id, db')) :
    id = command.evaluationId ∧
    ∃ payload, encodeEvaluationResult command.result = .ok payload ∧
      ∃ e a, db.current? command.evaluationId = some (e, a) ∧
        ((db' = db ∧ e.terminalResult = some payload ∧
            e.resultIdempotencyKey = some command.idempotencyKey) ∨
          (e.evaluationId = command.evaluationId ∧
            e.currentAttemptId = command.result.identity.attemptId ∧
              ∃ t, Finished db db' e a t .cancelled payload command.idempotencyKey
                command.now.value)) := by
  simp only [cancelTransaction, bind_eq_ok, refuseIf_eq_ok, reportAs_eq_ok, orRefuse_eq_ok,
    toI64_unixMillis, Option.some.injEq, exists_eq_left', storedResult_eq_ok, exists_const] at h
  obtain ⟨-, payload, hpayload, ⟨e, a⟩, hcurrent, replay, hstored, h⟩ := h
  obtain ⟨hid, t, htriple⟩ := hl.triple hcurrent
  rcases hstored with ⟨rfl, hnone⟩ | ⟨rfl, hresult, hkey⟩
  · simp only [Bool.false_eq_true, if_false, bind_eq_ok, refuseIf_eq_ok, not_or, not_not,
      reportAs_eq_ok, exists_const, pure, Except.pure, Except.ok.injEq, Prod.mk.injEq] at h
    obtain ⟨⟨he, ha⟩, hattempt, request, hdecode, hidentity, db₁, hwrite, rfl, rfl⟩ := h
    rw [← hid] at hwrite
    exact ⟨rfl, payload, hpayload, e, a, hcurrent, .inr
      ⟨hid, hattempt, t, writeTerminal_spec htriple hnone (or_iff_not_and_not.mpr he)
        (or_iff_not_and_not.mpr ha) hwrite⟩⟩
  · simp only [if_true, pure, Except.pure, Except.ok.injEq, Prod.mk.injEq] at h
    exact ⟨h.1.symm, payload, hpayload, e, a, hcurrent, .inl ⟨h.2.symm, hresult, hkey⟩⟩

end OpenOJ
