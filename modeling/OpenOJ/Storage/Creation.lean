import OpenOJ.Storage.Progress

/-!
# When a creation succeeds

A creation whose identifiers and key are not in use (`Unused`), whose references do not conflict
with registered ones (`ReferencesAgree`) and whose capabilities the task table accepts is carried
out from every coupled database, and reported as it was written:

* `createWrite_ok`: the write commits and has the effect of a creation;
* `createEvaluation_ok`: the operation is answered with a queued evaluation;
* `createWrite_unavailable`, `createEvaluation_unavailable`: with capabilities that the task table
  does not accept, the store is unavailable and nothing was written.

The last section makes the first creation in an empty database, and the first claim after it
(`exists_created`, `exists_claimed`). Of these two databases it collects what later modules ask when
they discharge a condition on a concrete run: which attempts and results are in them, and which
identifiers are not (`Claimed.only_attempt`, `Created.no_result`, `Claimed.fixtureNext_unused`).
-/

namespace OpenOJ

open Outcome Relation

variable {db : Database} {request : EvaluationRequest}

/-! ### References -/

/-- What is registered under the request's reference ids is what the request refers to. -/
structure ReferencesAgree (db : Database) (request : EvaluationRequest) : Prop where
  artifact : ∀ row, db.artifacts.find? request.submission.source.artifactId = some row →
    row = artifactRow request.submission.source request.submission.source.sizeBytes
  problemVersion : ∀ row,
    db.problemVersions.find? request.problemVersion.problemVersionId = some row →
      row = ⟨request.problemVersion.problemVersionId, request.problemVersion.problemId,
        request.problemVersion.digest⟩
  submission : ∀ row, db.submissions.find? request.submission.submissionId = some row →
    row = ⟨request.submission.submissionId, request.submission.source.artifactId⟩
  runtime : ∀ row, db.runtimes.find? request.runtime.runtimeId = some row →
    row = ⟨request.runtime.runtimeId, request.runtime.digest⟩

/-- Registering a row that agrees with the registered one succeeds, and the row is there. -/
private theorem register_ok {ρ : Type} [Relation.{0, 0} ρ] [DecidableEq ρ] (table : Table ρ)
    (row : ρ) (references : Prop) [Decidable references]
    (hagree : ∀ stored, table.find? (Relation.key row) = some stored → stored = row)
    (hcheck : Relation.Check row)
    (hapart : ∀ s : ρ, Relation.key s ≠ Relation.key row → Relation.Apart s row)
    (href : references) :
    ∃ table', register table row references = .ok table' ∧
      (table'.find? (Relation.key row)).isSome := by
  unfold register
  cases hfind : table.find? (Relation.key row) with
  | some stored =>
    refine ⟨table, ?_, by rw [hfind]; rfl⟩
    simp only [hagree stored hfind, ne_eq, not_true_eq_false, refuseIf_neg not_false, ok_bind]
    rfl
  | none =>
    obtain ⟨table', hinsert⟩ := Table.exists_insert hcheck fun s hs =>
      hapart s (Table.find?_eq_none.mp hfind s hs)
    refine ⟨table', ?_, ?_⟩
    · simp only [hinsert, reportAs_ok, ok_bind, refuseIf_neg (not_not.mpr href)]
      rfl
    · rw [(Table.find?_insert hinsert).2, Function.update_self]
      rfl

theorem toI64_sizeBytes (source : ArtifactRef) :
    toI64 source.sizeBytes = some (source.sizeBytes : Int) := by
  have h : source.sizeBytes ≤ 1099511627776 := source.bounded
  exact if_pos (by unfold i64Max; omega)

private theorem artifactRow_check (source : ArtifactRef) :
    Relation.Check (artifactRow source source.sizeBytes) := by
  have h : source.sizeBytes ≤ 1099511627776 := source.bounded
  have hle := source.mediaType.length_le
  unfold maxMediaTypeLength at hle
  refine ⟨source.mediaType.length_pos, hle, Int.natCast_nonneg _, ?_⟩
  change (source.sizeBytes : Int) ≤ 1099511627776
  omega

/-- References that agree with the registered ones can be registered. -/
theorem register_all_ok (h : ReferencesAgree db request) :
    ∃ db₁ db₂ db₃ db₄, registerArtifact request db = .ok db₁ ∧
      registerProblemVersion request db₁ = .ok db₂ ∧
        registerSubmission request db₂ = .ok db₃ ∧ registerRuntime request db₃ = .ok db₄ ∧
          (db₄.problemVersions.find? request.problemVersion.problemVersionId).isSome ∧
            (db₄.submissions.find? request.submission.submissionId).isSome ∧
              (db₄.runtimes.find? request.runtime.runtimeId).isSome := by
  obtain ⟨artifacts, h₁, hartifact⟩ := register_ok db.artifacts
    (artifactRow request.submission.source request.submission.source.sizeBytes) True h.artifact
    (artifactRow_check _) (fun _ hne => hne) trivial
  obtain ⟨problemVersions, h₂, hproblem⟩ := register_ok db.problemVersions
    ⟨request.problemVersion.problemVersionId, request.problemVersion.problemId,
      request.problemVersion.digest⟩ True h.problemVersion trivial (fun _ hne => hne) trivial
  obtain ⟨submissions, h₃, hsubmission⟩ := register_ok db.submissions
    ⟨request.submission.submissionId, request.submission.source.artifactId⟩
    (artifacts.find? request.submission.source.artifactId).isSome h.submission trivial
    (fun _ hne => hne) hartifact
  obtain ⟨runtimes, h₄, hruntime⟩ := register_ok db.runtimes
    ⟨request.runtime.runtimeId, request.runtime.digest⟩ True h.runtime trivial
    (fun _ hne => hne) trivial
  refine ⟨{ db with artifacts }, { db with artifacts, problemVersions },
    { db with artifacts, problemVersions, submissions },
    { db with artifacts, problemVersions, submissions, runtimes }, ?_, ?_, ?_, ?_, hproblem,
    hsubmission, hruntime⟩
  · simp only [registerArtifact, toI64_sizeBytes, orRefuse_some, ok_bind, h₁]
    rfl
  · simp only [registerProblemVersion, h₂, ok_bind]
    rfl
  · simp only [registerSubmission, h₃, ok_bind]
    rfl
  · simp only [registerRuntime, h₄, ok_bind]
    rfl

/-! ### The rows of a new evaluation -/

/-- The identifiers and the key of a request are not in use. -/
structure Unused (db : Database) (request : EvaluationRequest) : Prop where
  evaluationId : db.evaluations.find? request.evaluationId = none
  attemptId : db.attempts.find? request.attemptId = none
  creationKey : ∀ e ∈ db.evaluations.rows, e.creationIdempotencyKey ≠ request.idempotencyKey
  attemptKey : ∀ a ∈ db.attempts.rows, a.attemptIdempotencyKey ≠ request.idempotencyKey

section Write

variable {payload : List UInt8} {now : Int}

private theorem Unused.evaluation_apart (h : Unused db request) {s : EvaluationRow}
    (hs : s ∈ db.evaluations.rows) : s.Apart (evaluationRow request payload now) where
  evaluationId := Table.find?_eq_none.mp h.evaluationId s hs
  creationKey := h.creationKey s hs
  resultKey := by
    cases hkey : s.resultIdempotencyKey with
    | none => exact .inl rfl
    | some => exact .inr (by simp [evaluationRow])

private theorem Unused.attempt_apart (h : Unused db request) (hc : Coupled db) {s : AttemptRow}
    (hs : s ∈ db.attempts.rows) : s.Apart (attemptRow request payload now) where
  attemptId := Table.find?_eq_none.mp h.attemptId s hs
  attemptKey := h.attemptKey s hs
  number := by
    refine .inl fun heq => ?_
    have howner := hc.owned _ s (Table.mem_rows.mp hs)
    rw [show s.evaluationId = request.evaluationId from heq, h.evaluationId] at howner
    cases howner
  claimOperation := by
    cases hop : s.claimOperationId with
    | none => exact .inl rfl
    | some => exact .inr (.inr (.inr (by simp [attemptRow])))

private theorem Unused.task_apart (h : Unused db request) (hc : Coupled db) {s : TaskRow}
    (hs : s ∈ db.tasks.rows) : Relation.Apart s (taskRow request now) := by
  intro heq
  have hattempted := hc.attempted _ s (Table.mem_rows.mp hs)
  rw [show Relation.key s = request.attemptId from heq, h.attemptId] at hattempted
  cases hattempted

/-- Up to its task, a new request with acceptable references is inserted from every coupled
database; what is left of the creation is the task and the commit. -/
private theorem createWrite_eq {command : CreateEvaluation} (hc : Coupled db)
    (hunused : Unused db command.request) (hreferences : ReferencesAgree db command.request)
    (hpayload : 1 ≤ payload.length ∧ payload.length ≤ maxEvaluationRequestBytes) :
    ∃ db₆ : Database,
      (∀ s ∈ db₆.tasks.rows, Relation.Apart s (taskRow command.request command.createdAt.value)) ∧
        (db₆.attempts.find? command.request.attemptId).isSome ∧
          (∀ db₇, db₆.insertTask (taskRow command.request command.createdAt.value) = .ok db₇ →
            Created db db₇ command.request payload command.createdAt.value) ∧
            createWrite command payload db = (translate mapInsertError
              (db₆.insertTask (taskRow command.request command.createdAt.value)) >>=
                Database.commit) := by
  have hnow := inTimeRange_unixMillis command.createdAt
  -- the registries come first, and the rows that refer to them after
  obtain ⟨db₁, db₂, db₃, db₄, h₁, h₂, h₃, h₄, hproblem, hsubmission, hruntime⟩ :=
    register_all_ok hreferences
  obtain ⟨hevaluations, hattempts, htasks⟩ := registered_sameSpine h₁ h₂ h₃ h₄
  obtain ⟨db₅, h₅⟩ : ∃ db₅, db₄.insertEvaluation
      (evaluationRow command.request payload command.createdAt.value) = .ok db₅ :=
    Database.exists_insertRow (ρ := EvaluationRow)
      (evaluationRow_valid hpayload.1 hpayload.2 hnow)
      (fun s hs => hunused.evaluation_apart (hevaluations ▸ hs))
      ⟨hproblem, hsubmission, hruntime⟩
  obtain ⟨-, hevaluations₅, hattempts₅, htasks₅, -⟩ := Database.insertEvaluation_spec h₅
  obtain ⟨db₆, h₆⟩ : ∃ db₆, db₅.insertAttempt
      (attemptRow command.request payload command.createdAt.value) = .ok db₆ := by
    refine Database.exists_insertRow (ρ := AttemptRow)
      (attemptRow_valid hpayload.1 hpayload.2 hnow) (fun s hs => ?_) ?_
    · exact hunused.attempt_apart hc (hattempts ▸ hattempts₅ ▸ hs)
    · rw [hevaluations₅, show (attemptRow command.request payload
        command.createdAt.value).evaluationId = (evaluationRow command.request payload
          command.createdAt.value).evaluationId from rfl, Function.update_self]
      rfl
  obtain ⟨-, hattempts₆, -, htasks₆, -⟩ := Database.insertAttempt_spec h₆
  refine ⟨db₆, fun s hs => ?_, ?_, fun db₇ h₇ => created_of_inserts h₁ h₂ h₃ h₄ h₅ h₆ h₇, ?_⟩
  · exact hunused.task_apart hc (htasks ▸ htasks₅ ▸ htasks₆ ▸ hs)
  · rw [hattempts₆, show command.request.attemptId =
      (attemptRow command.request payload command.createdAt.value).attemptId from rfl,
      Function.update_self]
    rfl
  · simp only [createWrite, h₁, h₂, h₃, h₄, toI64_unixMillis, orRefuse_some, ok_bind, h₅, h₆,
      translate_ok]

/-- **Creating succeeds** from every coupled database. -/
theorem createWrite_ok {command : CreateEvaluation} (hc : Coupled db)
    (hunused : Unused db command.request) (hreferences : ReferencesAgree db command.request)
    (hpayload : 1 ≤ payload.length ∧ payload.length ≤ maxEvaluationRequestBytes)
    (hcapabilities : validRequiredCapabilities
      (command.request.requiredCapabilities.map (·.value)) = true) :
    ∃ db', createWrite command payload db = .ok db' := by
  have hnow := inTimeRange_unixMillis command.createdAt
  obtain ⟨db₆, hapart, hattempt, hcreated, heq⟩ := createWrite_eq hc hunused hreferences hpayload
  obtain ⟨db₇, h₇⟩ : ∃ db₇, db₆.insertTask (taskRow command.request command.createdAt.value) =
      .ok db₇ :=
    Database.exists_insertRow (ρ := TaskRow) ⟨⟨hnow, Int.le_refl _, hnow.2⟩, hcapabilities⟩
      hapart hattempt
  refine ⟨db₇, ?_⟩
  rw [heq, h₇, translate_ok, ok_bind, (hc.created (hcreated db₇ h₇)).linked.commit_ok]

/-- A new request whose capabilities the task table refuses cannot be created: its task
violates a `CHECK`. -/
theorem createWrite_unavailable {command : CreateEvaluation} (hc : Coupled db)
    (hunused : Unused db command.request) (hreferences : ReferencesAgree db command.request)
    (hpayload : 1 ≤ payload.length ∧ payload.length ≤ maxEvaluationRequestBytes)
    (hcapabilities : validRequiredCapabilities
      (command.request.requiredCapabilities.map (·.value)) = false) :
    createWrite command payload db = .error .unavailable := by
  obtain ⟨db₆, -, -, -, heq⟩ := createWrite_eq hc hunused hreferences hpayload
  have hcheck : ¬Relation.Check (taskRow command.request command.createdAt.value) := by
    rintro ⟨-, h⟩
    rw [show (taskRow command.request command.createdAt.value).requiredCapabilities =
      command.request.requiredCapabilities.map (·.value) from rfl, hcapabilities] at h
    cases h
  have hrefused : db₆.insertTask (taskRow command.request command.createdAt.value) =
      .error .check := by
    rw [Database.insertTask, Database.insertRow, Table.insert_check hcheck, error_bind]
  rw [heq, hrefused, translate_error, error_bind]
  rfl

end Write

/-! ### The operation -/

/-- An unused key is not found. -/
theorem createLookup_unused (h : Unused db request) (payload : List UInt8) :
    createLookup request.idempotencyKey payload db = .ok none := by
  unfold createLookup
  have hnone : db.evaluations.rows.find?
      (fun e => e.creationIdempotencyKey = request.idempotencyKey) = none := by
    simpa using h.creationKey
  rw [hnone]
  rfl

section Operation

variable [Wire] {payload : List UInt8}

/-- A creation that writes is reported as it was written. -/
theorem createEvaluation_of_write {command : CreateEvaluation} {db' : Database}
    (hl : LosslessRequests) (hr : store.Reachable db)
    (hpayload : encodeEvaluationRequest command.request = .ok payload)
    (hlookup : createLookup command.request.idempotencyKey payload db = .ok none)
    (hwrite : createWrite command payload db = .ok db') :
    Created db db' command.request payload command.createdAt.value ∧
      createEvaluation command db =
        (.ok (snapshotOf (evaluationRow command.request payload command.createdAt.value)
          (attemptRow command.request payload command.createdAt.value)), db') := by
  have hcreated := createWrite_spec hwrite
  have htransaction : createTransaction command db = .ok (command.request.evaluationId, db') := by
    simp only [createTransaction, hpayload, reportAs_ok, ok_bind, hlookup, hwrite]
    rfl
  have hcreate : createEvaluation command db =
      (evaluationStatus db' command.request.evaluationId, db') := by
    rw [createEvaluation, htransaction, transact_ok]
  have hr' : store.Reachable db' := by
    have := hr.next (.createEvaluation command)
    rwa [next_createEvaluation, hcreate] at this
  have hstatus := evaluationStatus_ok (legible_of_reachable hl hr') hcreated.triple
  refine ⟨hcreated, ?_⟩
  rw [hcreate]
  exact congrArg (fun answer => (answer, db')) hstatus

/-- **A creation succeeds** from every reachable database for a new request with acceptable
capabilities. -/
theorem createEvaluation_ok {command : CreateEvaluation} (hl : LosslessRequests)
    (hr : store.Reachable db) (hunused : Unused db command.request)
    (hreferences : ReferencesAgree db command.request)
    (hpayload : encodeEvaluationRequest command.request = .ok payload)
    (hcapabilities : validRequiredCapabilities
      (command.request.requiredCapabilities.map (·.value)) = true) :
    ∃ snapshot db', createEvaluation command db = (.ok snapshot, db') ∧
      Created db db' command.request payload command.createdAt.value := by
  obtain ⟨db', hwrite⟩ := createWrite_ok (coupled_of_reachable hr) hunused hreferences
    ⟨encode_ne_nil hl hpayload, length_of_encode hpayload⟩ hcapabilities
  obtain ⟨hcreated, hcreate⟩ :=
    createEvaluation_of_write hl hr hpayload (createLookup_unused hunused payload) hwrite
  exact ⟨_, db', hcreate, hcreated⟩

/-- A creation whose capabilities the task table refuses is reported as an unavailable store,
and writes nothing. -/
theorem createEvaluation_unavailable {command : CreateEvaluation} (hl : LosslessRequests)
    (hr : store.Reachable db) (hunused : Unused db command.request)
    (hreferences : ReferencesAgree db command.request)
    (hpayload : encodeEvaluationRequest command.request = .ok payload)
    (hcapabilities : validRequiredCapabilities
      (command.request.requiredCapabilities.map (·.value)) = false) :
    createEvaluation command db = (.error .unavailable, db) := by
  have hwrite := createWrite_unavailable (coupled_of_reachable hr) hunused hreferences
    ⟨encode_ne_nil hl hpayload, length_of_encode hpayload⟩ hcapabilities
  have htransaction : createTransaction command db = .error .unavailable := by
    simp only [createTransaction, hpayload, reportAs_ok, ok_bind,
      createLookup_unused hunused payload, hwrite, error_bind]
  rw [createEvaluation, htransaction, transact_error]

end Operation

/-! ### The first creation -/

theorem Unused.empty (request : EvaluationRequest) : Unused .empty request where
  evaluationId := rfl
  attemptId := rfl
  creationKey _ h := by cases h
  attemptKey _ h := by cases h

theorem ReferencesAgree.empty (request : EvaluationRequest) : ReferencesAgree .empty request where
  artifact _ h := by cases h
  problemVersion _ h := by cases h
  submission _ h := by cases h
  runtime _ h := by cases h

section Json

attribute [local instance] jsonWire

/-- Through plain JSON, a request with acceptable capabilities can be created in the empty
store. -/
theorem exists_created (request : EvaluationRequest) (hmedia : request.MediaTypeAccepted)
    (hcapabilities : validRequiredCapabilities (request.requiredCapabilities.map (·.value)) = true)
    (createdAt : UnixMillis) :
    ∃ payload db, store.run [.createEvaluation ⟨request, createdAt⟩] = db ∧
      encodeEvaluationRequest request = .ok payload ∧
        Created .empty db request payload createdAt.value := by
  have hl : LosslessRequests := WireType.json_lossless _
  obtain ⟨payload, hpayload⟩ := exists_encode hl hmedia
  have hcreate : ∃ snapshot db', createEvaluation ⟨request, createdAt⟩ .empty =
      (.ok snapshot, db') ∧ Created .empty db' request payload createdAt.value :=
    createEvaluation_ok hl store.reachable_start (.empty _) (.empty _) hpayload hcapabilities
  obtain ⟨snapshot, db', hcreate, hcreated⟩ := hcreate
  exact ⟨payload, db', congrArg Prod.snd hcreate, hpayload, hcreated⟩

/-- Through plain JSON, the only evaluation of a store can be claimed. -/
theorem exists_claimed (request : EvaluationRequest) (hmedia : request.MediaTypeAccepted)
    (hcapabilities : validRequiredCapabilities (request.requiredCapabilities.map (·.value)) = true)
    {createdAt expiresAt : UnixMillis} {command : ClaimTask}
    (hexpires : command.now.checkedAdd command.leaseDuration = .ok expiresAt)
    (hle : createdAt.value ≤ command.now.value) :
    ∃ payload db db',
      store.run [.createEvaluation ⟨request, createdAt⟩, .claimTask command fun _ => false] = db' ∧
      encodeEvaluationRequest request = .ok payload ∧
      Created .empty db request payload createdAt.value ∧
        Claimed db db' (evaluationRow request payload createdAt.value)
          (attemptRow request payload createdAt.value) (taskRow request createdAt.value)
          command.nodeId command.leaseToken expiresAt.value none command.now.value := by
  obtain ⟨payload, db, hrun, hpayload, hcreated⟩ :=
    exists_created request hmedia hcapabilities createdAt
  have hr : store.Reachable db := ⟨_, hrun⟩
  have hl : LosslessRequests := WireType.json_lossless _
  have hc := coupled_of_reachable hr
  have hmem : (_, _, _) ∈ claimable none (fun _ => false) db :=
    hcreated.triple.mem_claimable rfl rfl rfl rfl rfl
  obtain ⟨⟨t, a, e⟩, hnext⟩ := exists_nextClaimable hmem
  -- the task the claim selects is that of the one evaluation there is
  obtain ⟨htriple, -⟩ := hc.linked.triple_of_claimable (List.argmin_mem hnext)
  obtain ⟨rfl, rfl, rfl⟩ : e = _ ∧ a = _ ∧ t = _ := by
    rcases hcreated.triple_cases htriple with h | h
    · exact h
    · cases h.evaluation
  have hcreatedAt : (createdAt.value : Int) ≤ command.now.value := Int.ofNat_le.mpr hle
  have hnew : NewOperation db command.nodeId none := by
    intro s _ hsome heq
    rw [heq] at hsome
    cases hsome
  obtain ⟨lease, db', hclaim⟩ := claimTransaction_ok hc (legible_of_reachable hl hr) hnext hexpires
    hcreatedAt hcreatedAt hcreatedAt hnew
  obtain ⟨e, a, t, hnext', hgranted, hclaimed⟩ := claimTransaction_spec hc.linked hclaim
  obtain ⟨rfl, rfl, rfl⟩ : t = _ ∧ a = _ ∧ e = _ := by simpa using hnext'.symm.trans hnext
  have hexpiry : lease.expiresAt.value = expiresAt.value :=
    hgranted.expiresAt.trans (UnixMillis.checkedAdd_eq_ok.mp hexpires).symm
  have hstep : store.next (.claimTask command fun _ => false) db = db' := by
    rw [next_claimTask, claimTask, claimTaskWithCapabilities, hclaim, transact_ok]
  refine ⟨payload, db, db', ?_, hpayload, hcreated, hexpiry ▸ hclaimed⟩
  rw [← hstep, ← hrun]
  rfl

/-- A node that claims the fixture's task for a second. -/
def fixtureClaim : ClaimTask where
  nodeId := ⟨"node_01", by decide +kernel⟩
  leaseToken := ⟨"token_01", by decide +kernel⟩
  now := ⟨1000, by decide⟩
  leaseDuration := ⟨1000, by decide⟩

/-- The operation id of the fixture's claim, where it is the claim of a judge node. -/
def fixtureClaimOperation : ClaimOperationId := ⟨"claim_01", by decide +kernel⟩

def fixtureLeasePolicy : LeasePolicy := ⟨fixtureClaim.leaseDuration, ⟨500, by decide⟩, by decide⟩

/-- Three seconds after the lease of the fixture's claim expired. -/
def fixtureLate : UnixMillis := ⟨5000, by decide⟩

/-- A request that is created at time zero is leased by the fixture's claim until two
seconds later. -/
theorem exists_claimed_fixture (request : EvaluationRequest) (hmedia : request.MediaTypeAccepted)
    (hcapabilities :
      validRequiredCapabilities (request.requiredCapabilities.map (·.value)) = true) :
    ∃ payload db db',
      store.run [.createEvaluation ⟨request, ⟨0, by decide⟩⟩,
        .claimTask fixtureClaim fun _ => false] = db' ∧
      encodeEvaluationRequest request = .ok payload ∧ Created .empty db request payload 0 ∧
        Claimed db db' (evaluationRow request payload 0) (attemptRow request payload 0)
          (taskRow request 0) fixtureClaim.nodeId fixtureClaim.leaseToken 2000 none 1000 := by
  have hexpires : fixtureClaim.now.checkedAdd fixtureClaim.leaseDuration =
      .ok ⟨2000, by decide⟩ := rfl
  have hle : (⟨0, by decide⟩ : UnixMillis).value ≤ fixtureClaim.now.value := by decide
  exact exists_claimed request hmedia hcapabilities hexpires hle

/-- After a claim of the only evaluation, its attempt is the only one. -/
theorem Claimed.only_attempt {payload : List UInt8} {db' : Database} {e : EvaluationRow}
    {a b : AttemptRow} {t : TaskRow} {nodeId : NodeId} {leaseToken : LeaseToken}
    {operationId : Option ClaimOperationId} {createdAt expiry now : Int} {k : AttemptId}
    (h : Claimed db db' e a t nodeId leaseToken expiry operationId now)
    (hcreated : Created .empty db request payload createdAt)
    (hb : db'.attempts.find? k = some b) :
    b.attemptId = request.attemptId ∧ b.attemptIdempotencyKey = request.idempotencyKey := by
  have hold : ∀ c j, db.attempts.find? j = some c →
      c.attemptId = request.attemptId ∧ c.attemptIdempotencyKey = request.idempotencyKey := by
    intro c j hc
    rw [hcreated.attempts] at hc
    by_cases hj : j = request.attemptId
    · rw [hj, Function.update_self] at hc
      obtain rfl := Option.some.inj hc
      exact ⟨rfl, rfl⟩
    · rw [Function.update_of_ne hj] at hc
      cases hc
  rw [h.attempts] at hb
  by_cases hk : k = e.currentAttemptId
  · rw [hk, Function.update_self] at hb
    obtain rfl := Option.some.inj hb
    exact hold a _ h.triple.attempt
  · rw [Function.update_of_ne hk] at hb
    exact hold b k hb

/-- A store with one evaluation that was created holds no result. -/
theorem Created.no_result {payload : List UInt8} {createdAt : Int}
    (h : Created .empty db request payload createdAt) :
    ∀ s ∈ db.evaluations.rows, s.resultIdempotencyKey = none := by
  intro s hs
  have hfind := Table.mem_rows.mp hs
  rw [h.evaluations] at hfind
  by_cases hid : Relation.key s = request.evaluationId
  · rw [hid, Function.update_self] at hfind
    obtain rfl := Option.some.inj hfind
    rfl
  · rw [Function.update_of_ne hid] at hfind
    cases hfind

section Claimed

variable {payload : List UInt8} {db' : Database} {e : EvaluationRow} {a : AttemptRow} {t : TaskRow}
  {nodeId : NodeId} {leaseToken : LeaseToken} {operationId : Option ClaimOperationId}
  {createdAt expiry now : Int}

/-- A claim stores no result. -/
theorem Claimed.no_result (h : Claimed db db' e a t nodeId leaseToken expiry operationId now)
    (hnone : ∀ s ∈ db.evaluations.rows, s.resultIdempotencyKey = none) :
    ∀ s ∈ db'.evaluations.rows, s.resultIdempotencyKey = none := by
  intro s hs
  have hfind := Table.mem_rows.mp hs
  rw [h.evaluations] at hfind
  by_cases hid : Relation.key s = e.evaluationId
  · rw [hid, Function.update_self] at hfind
    obtain rfl := Option.some.inj hfind
    exact hnone e (Table.mem_of_find? h.triple.evaluation)
  · rw [Function.update_of_ne hid] at hfind
    exact hnone s (Table.mem_of_find? hfind)

theorem Claimed.find?_eq_none
    (h : Claimed db db' e a t nodeId leaseToken expiry operationId now)
    (hcreated : Created .empty db request payload createdAt) {k : AttemptId}
    (hk : k ≠ request.attemptId) : db'.attempts.find? k = none := by
  cases hfind : db'.attempts.find? k with
  | none => rfl
  | some b =>
    exact absurd ((Table.key_of_find? hfind).symm.trans (h.only_attempt hcreated hfind).1) hk

theorem Claimed.key_ne
    (h : Claimed db db' e a t nodeId leaseToken expiry operationId now)
    (hcreated : Created .empty db request payload createdAt) {key : IdempotencyKey}
    (hkey : key ≠ request.idempotencyKey) :
    ∀ b ∈ db'.attempts.rows, b.attemptIdempotencyKey ≠ key := by
  intro b hb heq
  exact hkey (heq.symm.trans (h.only_attempt hcreated (Table.mem_rows.mp hb)).2)

/-- The fixture's second attempt is still to be created while it has one attempt. -/
theorem Claimed.fixtureNext_unused
    (h : Claimed db db' e a t nodeId leaseToken expiry operationId now)
    (hcreated : Created .empty db fixtureRequest payload createdAt) :
    db'.attempts.find? fixtureNext.attemptId = none ∧
      ∀ b ∈ db'.attempts.rows, b.attemptIdempotencyKey ≠ fixtureNext.idempotencyKey :=
  ⟨h.find?_eq_none hcreated (by decide +kernel), h.key_ne hcreated (by decide +kernel)⟩

end Claimed

end Json
end OpenOJ
