import OpenOJ.Storage.Records

/-!
# When operations succeed

What each transaction needs in order to commit and to report on what it left. The rows of a coupled,
timed and legible database supply most of it; what is left is asked of the command: a time no
earlier than the rows it writes, identifiers and keys that are not in use (`NewOperation`,
`Replaceable`), and capabilities the task table accepts.

The statements come first: a row is inserted or updated when it satisfies the checks of its table
and is apart from the other rows (`Database.exists_insertRow`, `Database.exists_updateRow`), and
each way of changing a row keeps it valid at a time no earlier than its own
(`AttemptRow.Valid.claim`, `EvaluationRow.Valid.finish` and the others). Then, transaction by
transaction:

* `evaluationStatus_ok`: the rows of a legible database are reported as they are (`snapshotOf`);
* `claimTransaction_ok`: a claim succeeds on the task it selects;
* `writeTerminal_ok`: a terminal write succeeds when its key is new;
* `cancelTransaction_ok`: a cancellation succeeds for the identity of an open evaluation;
* `replaceAttempt_ok`: replacing an attempt succeeds when the request that replaces it is new.
-/

namespace OpenOJ

open Outcome Relation

variable {db db' : Database}

/-! ### Statements -/

section Statements

variable {ρ : Type} [Relation.{0, 0} ρ] [TableOf ρ]

theorem Database.exists_insertRow {row : ρ} {references : Prop} [Decidable references]
    (hcheck : Relation.Check row)
    (hapart : ∀ s ∈ (TableOf.get db : Table ρ).rows, Relation.Apart s row)
    (href : references) : ∃ db', db.insertRow row references = .ok db' := by
  obtain ⟨table, htable⟩ := Table.exists_insert hcheck hapart
  refine ⟨TableOf.set table db, ?_⟩
  rw [Database.insertRow, htable, ok_bind, refuseIf_neg (not_not.mpr href)]
  rfl

/-- An update that keeps a row apart from the others is accepted when its check passes. -/
theorem Database.exists_updateRow {k : Relation.Key ρ} {f : ρ → ρ} {row : ρ}
    (hrow : (TableOf.get db : Table ρ).find? k = some row) (hcheck : Relation.Check (f row))
    (hapart : ∀ s ∈ (TableOf.get db : Table ρ).rows, Relation.Apart s row →
      Relation.Apart s (f row)) :
    ∃ db', db.updateRow k f = .ok db' := by
  have hapart' : ∀ s ∈ (TableOf.get db : Table ρ).rows, Relation.key s ≠ k →
      Relation.Apart s (f row) := by
    intro s hs hne
    refine hapart s hs (Table.apart_of_ne hs (Table.mem_of_find? hrow) ?_)
    rintro rfl
    exact hne (Table.key_of_find? hrow)
  obtain ⟨table, htable⟩ := Table.exists_update hrow hcheck hapart'
  refine ⟨TableOf.set table db, ?_⟩
  rw [Database.updateRow, htable, ok_bind]
  rfl

end Statements

/-! ### Rows that stay valid -/

section Valid

variable {e : EvaluationRow} {a : AttemptRow} {t : TaskRow} {now : Int}

theorem EvaluationRow.Valid.move (h : e.Valid) (state : EvaluationState)
    (hle : e.createdAtMs ≤ now) (hmax : now ≤ maxUnixMillis) : (e.move state now).Valid :=
  ⟨h.requestBound, h.resultPair, h.resultBound, h.timeBound.1, hle, hmax⟩

theorem EvaluationRow.Valid.requeue (h : e.Valid) (attemptId : AttemptId)
    (hle : e.createdAtMs ≤ now) (hmax : now ≤ maxUnixMillis) :
    (e.requeue attemptId now).Valid :=
  ⟨h.requestBound, h.resultPair, h.resultBound, h.timeBound.1, hle, hmax⟩

theorem EvaluationRow.Valid.finish (h : e.Valid) (status : EvaluationStatus)
    {payload : List UInt8} (key : IdempotencyKey) (hpayload : 1 ≤ payload.length)
    (hbound : payload.length ≤ maxEvaluationResultBytes) (hle : e.createdAtMs ≤ now)
    (hmax : now ≤ maxUnixMillis) : (e.finish status payload key now).Valid where
  requestBound := h.requestBound
  resultPair := rfl
  resultBound result hresult := by
    obtain rfl := Option.some.inj hresult
    exact ⟨hpayload, hbound⟩
  timeBound := ⟨h.timeBound.1, hle, hmax⟩

theorem AttemptRow.Valid.move (h : a.Valid) (state : AttemptState)
    (hle : a.createdAtMs ≤ now) (hmax : now ≤ maxUnixMillis) : (a.move state now).Valid :=
  ⟨h.numberBound, h.requestBound, h.leaseOwner, h.leaseExpiry, h.expiryBound, h.timeBound.1,
    hle, hmax⟩

theorem AttemptRow.Valid.renew (h : a.Valid) {expiry : Int} (htoken : a.leaseToken.isSome)
    (hexpiry : InTimeRange expiry) (hle : a.createdAtMs ≤ now) (hmax : now ≤ maxUnixMillis) :
    (a.renew expiry now).Valid where
  numberBound := h.numberBound
  requestBound := h.requestBound
  leaseOwner := h.leaseOwner
  leaseExpiry := by
    change a.leaseToken.isNone = false
    cases hnone : a.leaseToken <;> simp_all
  expiryBound x hx := by
    obtain rfl := Option.some.inj hx
    exact hexpiry
  timeBound := ⟨h.timeBound.1, hle, hmax⟩

theorem AttemptRow.Valid.claim (h : a.Valid) (nodeId : NodeId) (leaseToken : LeaseToken)
    {expiry : Int} (operationId : Option ClaimOperationId) (hexpiry : InTimeRange expiry)
    (hle : a.createdAtMs ≤ now) (hmax : now ≤ maxUnixMillis) :
    (a.claim nodeId leaseToken expiry operationId now).Valid where
  numberBound := h.numberBound
  requestBound := h.requestBound
  leaseOwner := rfl
  leaseExpiry := rfl
  expiryBound x hx := by
    obtain rfl := Option.some.inj hx
    exact hexpiry
  timeBound := ⟨h.timeBound.1, hle, hmax⟩

theorem TaskRow.check_move (h : Relation.Check t) (state : TaskState)
    (hle : t.createdAtMs ≤ now) (hmax : now ≤ maxUnixMillis) :
    Relation.Check (t.move state now) :=
  ⟨⟨h.1.1, hle, hmax⟩, h.2⟩

theorem attemptRow_valid {request : EvaluationRequest} {payload : List UInt8}
    (hpayload : 1 ≤ payload.length) (hbound : payload.length ≤ maxEvaluationRequestBytes)
    (hnow : InTimeRange now) : (attemptRow request payload now).Valid where
  numberBound := by
    have h := (EvaluationRequestParts.validate_eq_ok.mp request.valid).1
    unfold u32Max at h
    simp only [attemptRow]
    omega
  requestBound := ⟨hpayload, hbound⟩
  leaseOwner := rfl
  leaseExpiry := rfl
  expiryBound x hx := by cases hx
  timeBound := ⟨hnow, Int.le_refl _, hnow.2⟩

theorem evaluationRow_valid {request : EvaluationRequest} {payload : List UInt8}
    (hpayload : 1 ≤ payload.length) (hbound : payload.length ≤ maxEvaluationRequestBytes)
    (hnow : InTimeRange now) : (evaluationRow request payload now).Valid where
  requestBound := ⟨hpayload, hbound⟩
  resultPair := rfl
  resultBound x hx := by cases hx
  timeBound := ⟨hnow, Int.le_refl _, hnow.2⟩

theorem inTimeRange_unixMillis (time : UnixMillis) : InTimeRange time.value :=
  ⟨Int.natCast_nonneg _, Int.ofNat_le.mpr time.valid⟩

end Valid

/-! ### Reading -/

section Status

variable [Wire]

/-- What is reported of an evaluation's rows. -/
def snapshotOf (e : EvaluationRow) (a : AttemptRow) : EvaluationSnapshot where
  evaluationId := e.evaluationId
  state := e.state
  currentAttemptId := a.attemptId
  attemptNumber := a.attemptNumber.toNat
  attemptState := a.state
  terminalResult := e.terminalResult.isSome

/-- **Status**: the rows of a legible database are reported as they are. -/
theorem evaluationStatus_ok (hg : Legible db) {e : EvaluationRow} {a : AttemptRow} {t : TaskRow}
    (h : Triple db e a t) : evaluationStatus db e.evaluationId = .ok (snapshotOf e a) := by
  obtain ⟨request, hdecode, ⟨hid, hattempt, hnumber⟩, -⟩ := hg _ a h.attempt
  have hvalid : a.Valid := Table.check_of_find? h.attempt
  have hbound : 0 ≤ a.attemptNumber ∧ a.attemptNumber ≤ u32Max := by
    have := hvalid.numberBound
    unfold u32Max
    omega
  have hmatch : ¬(request.evaluationId ≠ e.evaluationId ∨ request.attemptId ≠ a.attemptId ∨
      (request.attemptNumber : Int) ≠ a.attemptNumber) := by
    rw [hid, hattempt, hnumber, h.owned]
    simp
  rw [evaluationStatus, h.current?, orRefuse_some, ok_bind]
  simp only [hdecode, reportAs_ok, ok_bind, refuseIf_neg hmatch, snapshot, toU32, if_pos hbound,
    orRefuse_some]
  rfl

end Status

/-! ### Claiming -/

/-- A claimable task keeps a claim from being told that there is none. -/
theorem exists_nextClaimable {capabilities : Option (List String)} {locked : AttemptId → Bool}
    {e : EvaluationRow} {a : AttemptRow} {t : TaskRow}
    (h : (t, a, e) ∈ claimable capabilities locked db) :
    ∃ row, nextClaimable capabilities locked db = some row := by
  refine Option.isSome_iff_exists.mp (Option.isSome_iff_ne_none.mpr fun hnone => ?_)
  rw [List.argmin_eq_none.mp hnone] at h
  cases h

/-- The queued triple of an evaluation is claimable when its task is not locked and its
requirements are declared. -/
theorem Triple.mem_claimable {capabilities : Option (List String)} {locked : AttemptId → Bool}
    {e : EvaluationRow} {a : AttemptRow} {t : TaskRow} (h : Triple db e a t)
    (he : e.state = .queued) (ha : a.state = .queued) (ht : t.state = .ready)
    (hdeclares : declares capabilities t = true) (hlocked : locked e.currentAttemptId = false) :
    (t, a, e) ∈ claimable capabilities locked db := by
  have hid : t.attemptId = e.currentAttemptId := Table.key_of_find? h.task
  refine OpenOJ.mem_claimable.mpr ⟨?_, ?_, h.evaluation, hid.symm, ht, ha, he, hdeclares, ?_⟩
  · rw [hid]
    exact h.task
  · rw [hid]
    exact h.attempt
  · rw [hid]
    exact hlocked

/-- No attempt records this operation id for this node yet. -/
def NewOperation (db : Database) (nodeId : NodeId) (operationId : Option ClaimOperationId) :
    Prop :=
  ∀ s ∈ db.attempts.rows, s.claimOperationId.isSome → s.claimOperationId = operationId →
    s.nodeId ≠ some nodeId

/-- A claimed attempt stays apart from the others when the operation is new. -/
private theorem apart_claim {s a : AttemptRow} {nodeId : NodeId} {leaseToken : LeaseToken}
    {expiry now : Int} {operationId : Option ClaimOperationId} (h : s.Apart a)
    (hs : s ∈ db.attempts.rows) (hnew : NewOperation db nodeId operationId) :
    s.Apart (a.claim nodeId leaseToken expiry operationId now) where
  attemptId := h.attemptId
  attemptKey := h.attemptKey
  number := h.number
  claimOperation := by
    cases hop : s.claimOperationId with
    | none => exact .inl rfl
    | some id =>
      by_cases heq : s.claimOperationId = operationId
      · exact .inr (.inr (.inl (hnew s hs (by rw [hop]; rfl) heq)))
      · exact .inr (.inr (.inr (hop ▸ heq)))

section Moves

variable {k : AttemptId} {now : Int}

/-- An attempt can be moved at any time from its creation on. -/
private theorem Database.exists_updateAttempt_move {a : AttemptRow}
    (h : db.attempts.find? k = some a) (state : AttemptState) (hcreated : a.createdAtMs ≤ now)
    (hnow : InTimeRange now) :
    ∃ db', db.updateAttempt k (fun a => a.move state now) = .ok db' :=
  Database.exists_updateRow (ρ := AttemptRow) h
    ((Table.check_of_find? h : a.Valid).move _ hcreated hnow.2)
    fun _ _ hs => ⟨hs.attemptId, hs.attemptKey, hs.number, hs.claimOperation⟩

/-- A task can be moved at any time from its creation on. -/
private theorem Database.exists_updateTask_move {t : TaskRow} (h : db.tasks.find? k = some t)
    (state : TaskState) (hcreated : t.createdAtMs ≤ now) (hnow : InTimeRange now) :
    ∃ db', db.updateTask k (fun t => t.move state now) = .ok db' :=
  Database.exists_updateRow (ρ := TaskRow) h
    (TaskRow.check_move (Table.check_of_find? h) _ hcreated hnow.2) fun _ _ hs => hs

end Moves

section Claim

variable [Wire] {e : EvaluationRow} {a : AttemptRow} {t : TaskRow} {command : ClaimTask}
  {operationId : Option ClaimOperationId} {capabilities : Option (List String)}
  {locked : AttemptId → Bool}

/-- **A claim succeeds** on the task it selects when the rows may be rewritten at its time and
its operation is new. -/
theorem claimTransaction_ok (hc : Coupled db) (hg : Legible db) {expiresAt : UnixMillis}
    (hnext : nextClaimable capabilities locked db = some (t, a, e))
    (hexpires : command.now.checkedAdd command.leaseDuration = .ok expiresAt)
    (he : e.createdAtMs ≤ command.now.value) (ha : a.createdAtMs ≤ command.now.value)
    (ht : t.createdAtMs ≤ command.now.value)
    (hnew : NewOperation db command.nodeId operationId) :
    ∃ lease db', claimTransaction command operationId capabilities locked db =
      .ok (lease, db') := by
  have hnow := inTimeRange_unixMillis command.now
  obtain ⟨htriple, hcurrent, -, -, -⟩ := hc.linked.triple_of_claimable (List.argmin_mem hnext)
  obtain ⟨request, hdecode, hnames, -⟩ := hg _ a htriple.attempt
  have hvalid : a.Valid := Table.check_of_find? htriple.attempt
  -- attempt, evaluation and task, each as the one before left them
  obtain ⟨db₁, h₁⟩ : ∃ db₁, db.updateAttempt e.currentAttemptId (fun a =>
      a.claim command.nodeId command.leaseToken expiresAt.value operationId command.now.value) =
        .ok db₁ :=
    Database.exists_updateRow (ρ := AttemptRow) htriple.attempt
      (hvalid.claim _ _ _ (inTimeRange_unixMillis expiresAt) ha hnow.2)
      fun s hs hapart => apart_claim hapart hs hnew
  obtain ⟨-, hevaluations₁, htasks₁, -⟩ :=
    Database.updateAttempt_spec h₁ htriple.attempt fun _ => rfl
  have hfind₁ : db₁.evaluations.find? e.evaluationId = some e := by
    rw [hevaluations₁, htriple.evaluation]
  obtain ⟨db₂, h₂⟩ : ∃ db₂, db₁.updateEvaluation e.evaluationId
      (fun e => e.move .leased command.now.value) = .ok db₂ :=
    Database.exists_updateRow (ρ := EvaluationRow) hfind₁
      ((Table.check_of_find? hfind₁ : e.Valid).move _ he hnow.2)
      fun _ _ hs => ⟨hs.evaluationId, hs.creationKey, hs.resultKey⟩
  obtain ⟨-, -, htasks₂, -⟩ := Database.updateEvaluation_spec h₂ hfind₁ fun _ => rfl
  have hfind₂ : db₂.tasks.find? e.currentAttemptId = some t := by
    rw [htasks₂, htasks₁, htriple.task]
  obtain ⟨db₃, h₃⟩ := Database.exists_updateTask_move hfind₂ .leased ht hnow
  refine ⟨⟨request, command.nodeId, command.leaseToken, expiresAt⟩, db₃, ?_⟩
  simp only [claimTransaction, hexpires, reportAs_ok, ok_bind, toI64_unixMillis, orRefuse_some,
    hnext, hdecode, refuseIf_neg (not_not.mpr hnames), ← hcurrent, h₁, htriple.owned, h₂, h₃]
  rfl

end Claim

/-! ### Finishing -/

section Finish

variable {e : EvaluationRow} {a : AttemptRow} {t : TaskRow} {status : EvaluationStatus}
  {payload : List UInt8} {key : IdempotencyKey} {now : Int}

/-- **A terminal write succeeds** when the rows may be rewritten at `now` and the key is new. -/
theorem writeTerminal_ok (htriple : Triple db e a t)
    (hpayload : 1 ≤ payload.length ∧ payload.length ≤ maxEvaluationResultBytes)
    (hnow : InTimeRange now) (he : e.createdAtMs ≤ now) (ha : a.createdAtMs ≤ now)
    (ht : t.createdAtMs ≤ now)
    (hnew : ∀ s ∈ db.evaluations.rows, s.resultIdempotencyKey ≠ some key) :
    ∃ db', writeTerminal ⟨e.evaluationId, e.currentAttemptId, status, payload, key, now⟩ db =
      .ok db' := by
  have hevalid : e.Valid := Table.check_of_find? htriple.evaluation
  obtain ⟨db₁, h₁⟩ : ∃ db₁, db.updateEvaluation e.evaluationId
      (fun e => e.finish status payload key now) = .ok db₁ :=
    Database.exists_updateRow (ρ := EvaluationRow) htriple.evaluation
      (hevalid.finish status key hpayload.1 hpayload.2 he hnow.2)
      fun s hs hapart => ⟨hapart.evaluationId, hapart.creationKey, .inr (hnew s hs)⟩
  obtain ⟨-, hattempts₁, htasks₁, -⟩ :=
    Database.updateEvaluation_spec h₁ htriple.evaluation fun _ => rfl
  have hfind₁ : db₁.attempts.find? e.currentAttemptId = some a := by
    rw [hattempts₁, htriple.attempt]
  obtain ⟨db₂, h₂⟩ := Database.exists_updateAttempt_move hfind₁ status.attemptState ha hnow
  obtain ⟨-, -, htasks₂, -⟩ := Database.updateAttempt_spec h₂ hfind₁ fun _ => rfl
  have hfind₂ : db₂.tasks.find? e.currentAttemptId = some t := by
    rw [htasks₂, htasks₁, htriple.task]
  obtain ⟨db₃, h₃⟩ := Database.exists_updateTask_move hfind₂ status.taskState ht hnow
  exact ⟨db₃, by simp only [writeTerminal, h₁, translate_ok, ok_bind, h₂, reportAs_ok, h₃]⟩

/-- **A cancellation succeeds** for the identity of an open evaluation. -/
theorem cancelTransaction_ok [Wire] (hc : Coupled db) {command : CancelEvaluation}
    {request : EvaluationRequest} (htriple : Triple db e a t)
    (hopen : e.state = .queued ∨ e.state = .leased) (hid : command.evaluationId = e.evaluationId)
    (hstatus : command.result.status = .cancelled)
    (hdecode : decodeEvaluationRequest a.requestPayload = .ok request)
    (hnames : request.Names a)
    (hidentity : EvaluationIdentity.fromRequest request = command.result.identity)
    (hencode : encodeEvaluationResult command.result = .ok payload) (hpayload : 1 ≤ payload.length)
    (he : e.createdAtMs ≤ command.now.value) (ha : a.createdAtMs ≤ command.now.value)
    (ht : t.createdAtMs ≤ command.now.value)
    (hnew : ∀ s ∈ db.evaluations.rows, s.resultIdempotencyKey ≠ some command.idempotencyKey) :
    ∃ db', cancelTransaction command db = .ok (command.evaluationId, db') := by
  have hcoupled := hc.of_triple htriple
  obtain ⟨db', hwrite⟩ : ∃ db', writeTerminal ⟨e.evaluationId, e.currentAttemptId, .cancelled,
      payload, command.idempotencyKey, command.now.value⟩ db = .ok db' :=
    writeTerminal_ok htriple ⟨hpayload, length_of_encodeResult hencode⟩
      (inTimeRange_unixMillis command.now) he ha ht hnew
  have hopen' : a.state = .queued ∨ a.state = .leased := by
    rcases hopen with hstate | hstate
    · exact .inl (hcoupled.attempt_queued hstate)
    · exact .inr (hcoupled.attempt_leased hstate)
  have hresult : e.terminalResult = none := by
    have hnone := hcoupled.result
    rw [show e.state.isTerminal = false by rcases hopen with h | h <;> rw [h] <;> rfl] at hnone
    exact Option.isNone_iff_eq_none.mp (by simpa using hnone)
  have hstored : storedResult e command.idempotencyKey payload = .ok false :=
    storedResult_eq_ok.mpr (.inl ⟨rfl, hresult⟩)
  -- the identity names the evaluation and its current attempt
  have hevaluation : command.result.identity.evaluationId = command.evaluationId := by
    rw [← hidentity, hid, ← htriple.owned]
    exact hnames.1
  have hattempt : e.currentAttemptId = command.result.identity.attemptId := by
    rw [← hidentity, ← htriple.attemptId]
    exact hnames.2.1.symm
  have hcurrent : db.current? command.evaluationId = some (e, a) := hid ▸ htriple.current?
  refine ⟨db', ?_⟩
  have hmine : ¬(command.result.status ≠ .cancelled ∨
      command.result.identity.evaluationId ≠ command.evaluationId) := by
    simp [hstatus, hevaluation]
  have hstates : ¬(¬(e.state = .queued ∨ e.state = .leased) ∨
      ¬(a.state = .queued ∨ a.state = .leased)) := by
    simp only [hopen, hopen', not_true_eq_false, or_self, not_false_eq_true]
  rw [← hid] at hwrite
  simp only [cancelTransaction, refuseIf_neg hmine, ok_bind, hencode, reportAs_ok,
    toI64_unixMillis, orRefuse_some, hcurrent, hstored, Bool.false_eq_true, if_false,
    refuseIf_neg hstates, refuseIf_neg (not_not.mpr hattempt), hdecode,
    refuseIf_neg (not_not.mpr hidentity), hwrite]
  rfl

end Finish

/-! ### Retrying -/

/-- The last step of a creation and of a retry: no evaluation is left without its current
attempt. -/
theorem Linked.commit_ok (hl : Linked db) : db.commit = .ok db := by
  refine Database.commit_eq_ok.mpr ⟨rfl, fun e he => ?_⟩
  obtain ⟨a, t, htriple⟩ := hl _ e (Table.mem_rows.mp he)
  rw [htriple.attempt]
  rfl

section Retry

variable {e : EvaluationRow} {a : AttemptRow} {t : TaskRow} {request : EvaluationRequest}
  {payload : List UInt8} {now : Int}

/-- What a replacement needs of the request it brings in. -/
structure Replaceable (db : Database) (e : EvaluationRow) (a : AttemptRow) (t : TaskRow)
    (request : EvaluationRequest) (payload : List UInt8) : Prop where
  evaluationId : request.evaluationId = e.evaluationId
  number : (request.attemptNumber : Int) = a.attemptNumber + 1
  payloadBound : 1 ≤ payload.length ∧ payload.length ≤ maxEvaluationRequestBytes
  capabilities : request.requiredCapabilities.map (·.value) = t.requiredCapabilities
  newAttempt : db.attempts.find? request.attemptId = none
  newKey : ∀ s ∈ db.attempts.rows, s.attemptIdempotencyKey ≠ request.idempotencyKey

/-- The next attempt is apart from every attempt already stored. -/
private theorem Replaceable.apart (h : Replaceable db e a t request payload)
    (hc : EvaluationCoupled db e a t) {s : AttemptRow}
    (hs : db.attempts.find? s.attemptId = some s) :
    s.Apart (attemptRow request payload now) where
  attemptId := by
    intro heq
    rw [show s.attemptId = request.attemptId from heq, h.newAttempt] at hs
    cases hs
  attemptKey := h.newKey s (Table.mem_of_find? hs)
  number := by
    by_cases hid : s.evaluationId = request.evaluationId
    · right
      obtain ⟨first, hfirst⟩ := hc.numbers
      have hle := ((hfirst s.attemptNumber).mp
        ⟨s, ⟨hs, hid.trans h.evaluationId⟩, rfl⟩).2
      have hnumber := h.number
      simp only [attemptRow]
      omega
    · exact .inl hid
  claimOperation := by
    cases hs : s.claimOperationId with
    | none => exact .inl rfl
    | some => exact .inr (.inr (.inr (by simp [attemptRow])))

/-- **Replacing succeeds** when the rows may be rewritten at `now` and the request is new. -/
theorem replaceAttempt_ok (hc : Coupled db) (htriple : Triple db e a t)
    (hnow : InTimeRange now) (he : e.createdAtMs ≤ now) (ha : a.createdAtMs ≤ now)
    (ht : t.createdAtMs ≤ now) (h : Replaceable db e a t request payload) :
    ∃ db', replaceAttempt e.currentAttemptId request payload now db = .ok db' := by
  have hcoupled := hc.of_triple htriple
  -- the old attempt and its task expire, and the evaluation is queued
  obtain ⟨db₁, h₁⟩ := Database.exists_updateAttempt_move htriple.attempt .expired ha hnow
  obtain ⟨hattempts, hevaluations₁, htasks₁, -⟩ :=
    Database.updateAttempt_spec h₁ htriple.attempt fun _ => rfl
  have hfind₁ : db₁.tasks.find? e.currentAttemptId = some t := by rw [htasks₁, htriple.task]
  obtain ⟨db₂, h₂⟩ := Database.exists_updateTask_move hfind₁ .expired ht hnow
  obtain ⟨htasks, hevaluations₂, hattempts₂, -⟩ :=
    Database.updateTask_spec h₂ hfind₁ fun _ => rfl
  have hfind₂ : db₂.evaluations.find? e.evaluationId = some e := by
    rw [hevaluations₂, hevaluations₁, htriple.evaluation]
  obtain ⟨db₃, h₃⟩ : ∃ db₃, db₂.updateEvaluation e.evaluationId
      (fun e => e.requeue request.attemptId now) = .ok db₃ :=
    Database.exists_updateRow (ρ := EvaluationRow) hfind₂
      ((Table.check_of_find? hfind₂ : e.Valid).requeue _ he hnow.2)
      fun _ _ hs => ⟨hs.evaluationId, hs.creationKey, hs.resultKey⟩
  obtain ⟨hevaluations, hattempts₃, htasks₃, -⟩ :=
    Database.updateEvaluation_spec h₃ hfind₂ fun _ => rfl
  -- the new attempt is apart from the rest, of which only the old one has been written
  have hapart : ∀ s ∈ db₃.attempts.rows, s.Apart (attemptRow request payload now) := by
    intro s hs
    have hfind : db₃.attempts.find? s.attemptId = some s := Table.mem_rows.mp hs
    rw [hattempts₃, hattempts₂, hattempts] at hfind
    by_cases hk : s.attemptId = e.currentAttemptId
    · rw [hk, Function.update_self] at hfind
      obtain rfl := Option.some.inj hfind
      have hold : a.Apart (attemptRow request payload now) := h.apart hcoupled htriple.attemptOf.1
      exact ⟨hold.attemptId, hold.attemptKey, hold.number, hold.claimOperation⟩
    · rw [Function.update_of_ne hk] at hfind
      exact h.apart hcoupled hfind
  obtain ⟨db₄, h₄⟩ : ∃ db₄, db₃.insertAttempt (attemptRow request payload now) = .ok db₄ := by
    refine Database.exists_insertRow (ρ := AttemptRow)
      (attemptRow_valid h.payloadBound.1 h.payloadBound.2 hnow) hapart ?_
    rw [show (attemptRow request payload now).evaluationId = e.evaluationId from h.evaluationId,
      hevaluations, Function.update_self]
    rfl
  obtain ⟨-, hattempts₄, -, htasks₄, -⟩ := Database.insertAttempt_spec h₄
  obtain ⟨db₅, h₅⟩ : ∃ db₅, db₄.insertTask (taskRow request now) = .ok db₅ := by
    refine Database.exists_insertRow (ρ := TaskRow) ⟨⟨hnow, Int.le_refl _, hnow.2⟩, ?_⟩ ?_ ?_
    · have hchecked : Relation.Check t := Table.check_of_find? htriple.task
      exact (congrArg (validRequiredCapabilities · = true) h.capabilities).mpr hchecked.2
    · -- a task under the new id would have an attempt
      intro s hs heq
      have hfind : db₄.tasks.find? s.attemptId = some s := Table.mem_rows.mp hs
      have hne : request.attemptId ≠ e.currentAttemptId := by
        intro heq
        have := h.newAttempt
        rw [heq, htriple.attempt] at this
        cases this
      rw [htasks₄, htasks₃, htasks, htasks₁, show s.attemptId = request.attemptId from heq,
        Function.update_of_ne hne] at hfind
      have hattempted := hc.attempted _ s hfind
      rw [h.newAttempt] at hattempted
      cases hattempted
    · rw [hattempts₄, show (taskRow request now).attemptId =
        (attemptRow request payload now).attemptId from rfl, Function.update_self]
      rfl
  refine ⟨db₅, ?_⟩
  simp only [replaceAttempt, h₁, h₂, h.evaluationId, h₃, h₄, reportAs_ok, translate_ok, ok_bind, h₅]

end Retry
end OpenOJ
