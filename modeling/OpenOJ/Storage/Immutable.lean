import OpenOJ.Storage.Sweep

/-!
# Immutable references

What a request refers to by an id never changes: any two stored attempts that share an artifact,
problem version, submission or runtime id agree on all of it (`AgreeOnReferences`). A creation is
held to this by four registries, one for each kind of reference; a retry never looks at them and is
held to it by being compared, field by field, with the attempt it replaces.

Both keep the one invariant `Registered`: whatever the text of a stored attempt or evaluation refers
to is in the registries (`TextRegistered`, `InRegistries`).

* `register_spec`, `createWrite_references`: registering adds what is missing, keeps what is there
  (`References.Extends`), and refuses what differs;
* `Registered.next`: references stay registered under every call;
* `Registered.agree`: so any two stored attempts agree;
* `createTransaction_registered`, `retryTransaction_registered`: a transaction that commits was for
  a request whose references are registered.

`immutable_references` adds the refusals: a creation or a retry that disagrees with a stored attempt
fails and leaves the database as it was (`ImmutableReferences`).
-/

namespace OpenOJ

open Outcome Relation

/-! ### Agreement -/

/-- Two requests agree on every reference whose id they share. -/
structure AgreeOnReferences (r s : EvaluationRequest) : Prop where
  artifact : r.submission.source.artifactId = s.submission.source.artifactId →
    r.submission.source = s.submission.source
  problemVersion : r.problemVersion.problemVersionId = s.problemVersion.problemVersionId →
    r.problemVersion = s.problemVersion
  submission : r.submission.submissionId = s.submission.submissionId → r.submission = s.submission
  runtime : r.runtime.runtimeId = s.runtime.runtimeId → r.runtime = s.runtime

/-- The registries hold exactly what a request refers to. -/
structure InRegistries (references : References) (request : EvaluationRequest) : Prop where
  artifact : references.artifacts.find? request.submission.source.artifactId =
    some (artifactRow request.submission.source request.submission.source.sizeBytes)
  problemVersion : references.problemVersions.find? request.problemVersion.problemVersionId =
    some ⟨request.problemVersion.problemVersionId, request.problemVersion.problemId,
      request.problemVersion.digest⟩
  submission : references.submissions.find? request.submission.submissionId =
    some ⟨request.submission.submissionId, request.submission.source.artifactId⟩
  runtime : references.runtimes.find? request.runtime.runtimeId =
    some ⟨request.runtime.runtimeId, request.runtime.digest⟩

/-- The row of an artifact determines it. -/
private theorem artifactRow_injective {r s : ArtifactRef}
    (h : artifactRow r r.sizeBytes = artifactRow s s.sizeBytes) : r = s := by
  obtain ⟨hid, hdigest, hmedia, hsize, hsensitivity⟩ := ArtifactRow.mk.inj h
  have hsize : r.sizeBytes = s.sizeBytes := Int.ofNat.inj hsize
  cases r
  cases s
  simp_all

/-- Registered requests agree. -/
theorem InRegistries.agree {references : References} {r s : EvaluationRequest}
    (hr : InRegistries references r) (hs : InRegistries references s) : AgreeOnReferences r s := by
  have hartifact : r.submission.source.artifactId = s.submission.source.artifactId →
      r.submission.source = s.submission.source := by
    intro hid
    have h := hr.artifact
    rw [hid, hs.artifact] at h
    exact (artifactRow_injective (Option.some.inj h)).symm
  refine ⟨hartifact, fun hid => ?_, fun hid => ?_, fun hid => ?_⟩
  · have h := hr.problemVersion
    rw [hid, hs.problemVersion] at h
    obtain ⟨-, hproblem, hdigest⟩ := ProblemVersionRow.mk.inj (Option.some.inj h)
    cases hrp : r.problemVersion
    cases hsp : s.problemVersion
    simp_all
  · -- the registry has the artifact's id only; the artifact registry has the rest
    have h := hr.submission
    rw [hid, hs.submission] at h
    have hsource := hartifact (SubmissionRow.mk.inj (Option.some.inj h)).2.symm
    cases hrs : r.submission
    cases hss : s.submission
    simp_all
  · have h := hr.runtime
    rw [hid, hs.runtime] at h
    obtain ⟨-, hdigest⟩ := RuntimeRow.mk.inj (Option.some.inj h)
    cases hrr : r.runtime
    cases hsr : s.runtime
    simp_all

/-! ### Registering -/

/-- Every registered row is still there. -/
structure References.Extends (references references' : References) : Prop where
  artifacts : ∀ k row, references.artifacts.find? k = some row →
    references'.artifacts.find? k = some row
  problemVersions : ∀ k row, references.problemVersions.find? k = some row →
    references'.problemVersions.find? k = some row
  submissions : ∀ k row, references.submissions.find? k = some row →
    references'.submissions.find? k = some row
  runtimes : ∀ k row, references.runtimes.find? k = some row →
    references'.runtimes.find? k = some row

theorem References.Extends.refl (references : References) : references.Extends references :=
  ⟨fun _ _ h => h, fun _ _ h => h, fun _ _ h => h, fun _ _ h => h⟩

theorem InRegistries.extend {references references' : References} {request : EvaluationRequest}
    (h : InRegistries references request) (he : references.Extends references') :
    InRegistries references' request :=
  ⟨he.artifacts _ _ h.artifact, he.problemVersions _ _ h.problemVersion,
    he.submissions _ _ h.submission, he.runtimes _ _ h.runtime⟩

/-- A registration that is not refused leaves the row registered and every other row alone. -/
theorem register_spec {ρ : Type} [Relation.{0, 0} ρ] [DecidableEq ρ] {table table' : Table ρ}
    {row : ρ} {references : Prop} [Decidable references]
    (h : register table row references = .ok table') :
    table'.find? (Relation.key row) = some row ∧
      ∀ k stored, table.find? k = some stored → table'.find? k = some stored := by
  unfold register at h
  split at h
  · rename_i stored hstored
    obtain ⟨_, hsame, heq⟩ := bind_eq_ok.mp h
    obtain rfl := Except.ok.inj heq
    obtain rfl : stored = row := not_not.mp (refuseIf_eq_ok.mp hsame)
    exact ⟨hstored, fun _ _ hk => hk⟩
  · rename_i hnone
    obtain ⟨inserted, hinsert, h⟩ := bind_eq_ok.mp h
    obtain ⟨_, -, heq⟩ := bind_eq_ok.mp h
    obtain rfl := Except.ok.inj heq
    obtain ⟨-, hfind⟩ := Table.find?_insert (reportAs_eq_ok.mp hinsert)
    refine ⟨by rw [hfind, Function.update_self], fun k stored hk => ?_⟩
    rw [hfind, Function.update_of_ne, hk]
    rintro rfl
    rw [hnone] at hk
    cases hk

variable {db db' : Database}

/-- A creation that writes leaves its request registered. -/
theorem createWrite_references {command : CreateEvaluation} {payload : List UInt8}
    (h : createWrite command payload db = .ok db') :
    db.toReferences.Extends db'.toReferences ∧ InRegistries db'.toReferences command.request := by
  simp only [createWrite, bind_eq_ok, orRefuse_eq_ok, translate_eq_ok,
    Database.commit_eq_ok] at h
  obtain ⟨db₁, h₁, db₂, h₂, db₃, h₃, db₄, h₄, _, -, db₅, h₅, db₆, h₆, db₇, h₇, rfl, -⟩ := h
  have hreferences : db'.toReferences = db₄.toReferences := by
    rw [(Database.insertTask_spec h₇).2.2.2.2, (Database.insertAttempt_spec h₆).2.2.2.2,
      (Database.insertEvaluation_spec h₅).2.2.2.2]
  rw [hreferences]
  obtain ⟨size, hsize, h₁⟩ := bind_eq_ok.mp h₁
  obtain ⟨artifacts, hartifact, h₁⟩ := bind_eq_ok.mp h₁
  obtain ⟨problemVersions, hproblem, h₂⟩ := bind_eq_ok.mp h₂
  obtain ⟨submissions, hsubmission, h₃⟩ := bind_eq_ok.mp h₃
  obtain ⟨runtimes, hruntime, h₄⟩ := bind_eq_ok.mp h₄
  obtain rfl := Except.ok.inj h₁
  obtain rfl := Except.ok.inj h₂
  obtain rfl := Except.ok.inj h₃
  obtain rfl := Except.ok.inj h₄
  obtain rfl : size = command.request.submission.source.sizeBytes :=
    Option.some.inj ((orRefuse_eq_ok.mp hsize).symm.trans (toI64_sizeBytes _))
  obtain ⟨hartifact, hartifacts⟩ := register_spec hartifact
  obtain ⟨hproblem, hproblems⟩ := register_spec hproblem
  obtain ⟨hsubmission, hsubmissions⟩ := register_spec hsubmission
  obtain ⟨hruntime, hruntimes⟩ := register_spec hruntime
  exact ⟨⟨hartifacts, hproblems, hsubmissions, hruntimes⟩,
    ⟨hartifact, hproblem, hsubmission, hruntime⟩⟩

/-! ### The invariant -/

section Invariant

variable [Wire]

/-- The text is that of a registered request. -/
def TextRegistered (references : References) (payload : List UInt8) : Prop :=
  ∃ request, decodeEvaluationRequest payload = .ok request ∧ InRegistries references request

/-- What the texts of all evaluations and attempts refer to is registered. -/
structure Registered (db : Database) : Prop where
  evaluation : ∀ id e, db.evaluations.find? id = some e →
    TextRegistered db.toReferences e.initialRequest
  attempt : ∀ k a, db.attempts.find? k = some a → TextRegistered db.toReferences a.requestPayload

theorem Registered.empty : Registered .empty where
  evaluation _ _ h := by cases h
  attempt _ _ h := by cases h

theorem TextRegistered.extend {references references' : References} {payload : List UInt8}
    (h : TextRegistered references payload) (he : references.Extends references') :
    TextRegistered references' payload := by
  obtain ⟨request, hdecode, hregistered⟩ := h
  exact ⟨request, hdecode, hregistered.extend he⟩

/-- Rewriting rows in place keeps their texts and the registries. -/
private theorem Registered.rewritten {e e' : EvaluationRow} {a a' : AttemptRow} {t t' : TaskRow}
    (hg : Registered db) (h : Rewritten db db' e e' a a' t t')
    (hinitial : e'.initialRequest = e.initialRequest)
    (hreferences : db'.toReferences = db.toReferences) : Registered db' where
  evaluation id f hf := by
    rw [h.evaluations] at hf
    rw [hreferences]
    by_cases hid : id = e.evaluationId
    · rw [hid, Function.update_self] at hf
      obtain rfl := Option.some.inj hf
      exact hinitial ▸ hg.evaluation _ e h.triple.evaluation
    · rw [Function.update_of_ne hid] at hf
      exact hg.evaluation id f hf
  attempt k b hb := by
    rw [hreferences]
    by_cases hk : k = e.currentAttemptId
    · rw [h.attempts, hk, Function.update_self] at hb
      obtain rfl := Option.some.inj hb
      exact h.payload ▸ hg.attempt _ a h.triple.attempt
    · rw [h.other hk] at hb
      exact hg.attempt k b hb

/-- A creation registers what its text refers to. -/
private theorem Registered.created {request : EvaluationRequest} {payload : List UInt8} {now : Int}
    (hl : LosslessRequests) (hg : Registered db) (h : Created db db' request payload now)
    (hpayload : encodeEvaluationRequest request = .ok payload)
    (he : db.toReferences.Extends db'.toReferences) (hr : InRegistries db'.toReferences request) :
    Registered db' where
  evaluation id f hf := by
    rw [h.evaluations] at hf
    by_cases hid : id = request.evaluationId
    · rw [hid, Function.update_self] at hf
      obtain rfl := Option.some.inj hf
      exact ⟨request, decode_of_encode hl hpayload, hr⟩
    · rw [Function.update_of_ne hid] at hf
      exact (hg.evaluation id f hf).extend he
  attempt k b hb := by
    rw [h.attempts] at hb
    by_cases hk : k = request.attemptId
    · rw [hk, Function.update_self] at hb
      obtain rfl := Option.some.inj hb
      exact ⟨request, decode_of_encode hl hpayload, hr⟩
    · rw [Function.update_of_ne hk] at hb
      exact (hg.attempt k b hb).extend he

omit [Wire] in
/-- A request with the semantics of a registered one is registered. -/
private theorem InRegistries.sameSemantics {references : References}
    {current next : EvaluationRequest} (h : InRegistries references current)
    (hsame : sameEvaluationSemantics current next = true) :
    InRegistries references next := by
  simp only [sameEvaluationSemantics, Bool.and_eq_true, decide_eq_true_eq] at hsame
  obtain ⟨⟨⟨⟨⟨⟨-, hproblem⟩, hsubmission⟩, hruntime⟩, -⟩, -⟩, -⟩ := hsame
  exact ⟨hsubmission ▸ h.artifact, hproblem ▸ h.problemVersion, hsubmission ▸ h.submission,
    hruntime ▸ h.runtime⟩

/-- A retry brings no reference that the attempt it replaces does not have. -/
private theorem Registered.recovery {now : UnixMillis} (hl : LosslessRequests) (hg : Registered db)
    (h : Recovery now db db') : Registered db' := by
  obtain ⟨e, a, t, current, request, payload, hdecode, hsame, hpayload, h⟩ := h
  refine ⟨fun id f hf => ?_, fun k b hb => ?_⟩
  · rw [h.evaluations] at hf
    rw [h.references]
    by_cases hid : id = e.evaluationId
    · rw [hid, Function.update_self] at hf
      obtain rfl := Option.some.inj hf
      exact hg.evaluation _ e h.triple.evaluation
    · rw [Function.update_of_ne hid] at hf
      exact hg.evaluation id f hf
  · rw [h.attempts] at hb
    rw [h.references]
    by_cases hnew : k = request.attemptId
    · rw [hnew, Function.update_self] at hb
      obtain rfl := Option.some.inj hb
      obtain ⟨current', hdecode', hregistered⟩ := hg.attempt _ a h.triple.attempt
      obtain rfl := Except.ok.inj (hdecode'.symm.trans hdecode)
      exact ⟨request, decode_of_encode hl hpayload, hregistered.sameSemantics hsame⟩
    · rw [Function.update_of_ne hnew] at hb
      by_cases hk : k = e.currentAttemptId
      · rw [hk, Function.update_self] at hb
        obtain rfl := Option.some.inj hb
        exact hg.attempt _ a h.triple.attempt
      · rw [Function.update_of_ne hk] at hb
        exact hg.attempt k b hb

/-- What a creation leaves: the database as it was, or a new evaluation whose request is
registered. -/
private theorem createEvaluation_cases (command : CreateEvaluation) (db : Database) :
    (createEvaluation command db).2 = db ∨
      ∃ payload, encodeEvaluationRequest command.request = .ok payload ∧
        Created db (createEvaluation command db).2 command.request payload
          command.createdAt.value ∧
        db.toReferences.Extends (createEvaluation command db).2.toReferences ∧
          InRegistries (createEvaluation command db).2.toReferences command.request := by
  unfold createEvaluation
  rcases transact_cases (createTransaction command db) (fun id db => evaluationStatus db id) db
    with ⟨e, -, heq⟩ | ⟨id, db', hok, heq⟩
  · exact .inl (congrArg Prod.snd heq)
  · rw [heq]
    simp only [createTransaction, bind_eq_ok, reportAs_eq_ok] at hok
    obtain ⟨payload, hpayload, found, -, hok⟩ := hok
    cases found with
    | some found => exact .inl (Prod.mk.inj (Except.ok.inj hok)).2.symm
    | none =>
      obtain ⟨db'', hwrite, hok⟩ := bind_eq_ok.mp hok
      obtain ⟨-, rfl⟩ := Prod.mk.inj (Except.ok.inj hok)
      exact .inr ⟨payload, hpayload, createWrite_spec hwrite, createWrite_references hwrite⟩

/-- **References stay registered** under every call. -/
theorem Registered.next (hl : LosslessRequests) (hc : Coupled db) (hg : Registered db)
    (op : Operation) : Registered (store.next op db) := by
  by_cases hcreate : ∃ command, op = .createEvaluation command
  · obtain ⟨command, rfl⟩ := hcreate
    rw [next_createEvaluation]
    rcases createEvaluation_cases command db with heq | ⟨payload, hpayload, h, he, hr⟩
    · rw [heq]
      exact hg
    · exact hg.created hl h hpayload he hr
  · have hperformed := performed hc op
    generalize store.next op db = db' at hperformed
    cases hperformed with
    | idle => exact hg
    | @created command => exact absurd ⟨command, rfl⟩ hcreate
    | claimed _ _ _ h => exact hg.rewritten h.rewritten rfl h.references
    | renewed _ _ _ _ h =>
      obtain ⟨t, htriple⟩ := h.triple hc.linked
      exact hg.rewritten (h.rewritten htriple) rfl h.references
    | recovered _ h =>
      exact (recoveries_preserve (fun _ _ _ h hg => Registered.recovery hl hg h) h hc hg).2
    | submitted _ _ h => exact hg.rewritten h.rewritten rfl h.references
    | cancelled _ h => exact hg.rewritten h.rewritten rfl h.references

theorem registered_of_reachable (hl : LosslessRequests) (h : store.Reachable db) : Registered db :=
  h.induction Registered.empty fun _ op hr hg => hg.next hl (coupled_of_reachable hr) op

/-! ### What is refused -/

/-- A registered request agrees with the request of every stored attempt. -/
theorem Registered.agree {request stored : EvaluationRequest} {k : AttemptId} {a : AttemptRow}
    (hg : Registered db) (h : InRegistries db.toReferences request)
    (ha : db.attempts.find? k = some a)
    (hdecode : decodeEvaluationRequest a.requestPayload = .ok stored) :
    AgreeOnReferences request stored := by
  obtain ⟨_, hdecode', hstored⟩ := hg.attempt k a ha
  obtain rfl := Except.ok.inj (hdecode'.symm.trans hdecode)
  exact h.agree hstored

/-- A request whose text is that of a registered one is registered. -/
private theorem TextRegistered.of_encode {references : References} {request : EvaluationRequest}
    {payload : List UInt8} (hl : LosslessRequests) (h : TextRegistered references payload)
    (hpayload : encodeEvaluationRequest request = .ok payload) :
    InRegistries references request := by
  obtain ⟨_, hdecode, hregistered⟩ := h
  obtain rfl := Except.ok.inj (hdecode.symm.trans (decode_of_encode hl hpayload))
  exact hregistered

/-- A creation that commits, whether it writes or replays, leaves its request registered. -/
theorem createTransaction_registered {command : CreateEvaluation} {id : EvaluationId}
    (hl : LosslessRequests) (hg : Registered db)
    (h : createTransaction command db = .ok (id, db')) :
    db.toReferences.Extends db'.toReferences ∧ InRegistries db'.toReferences command.request := by
  simp only [createTransaction, bind_eq_ok, reportAs_eq_ok] at h
  obtain ⟨payload, hpayload, found, hfound, h⟩ := h
  rcases createLookup_eq_ok hfound with ⟨row, hrow, -, rfl, rfl⟩ | ⟨rfl, -⟩
  · obtain ⟨-, rfl⟩ := Prod.mk.inj (Except.ok.inj h)
    exact ⟨.refl _, (hg.evaluation _ row (Table.mem_rows.mp hrow)).of_encode hl hpayload⟩
  · obtain ⟨_, hwrite, h⟩ := bind_eq_ok.mp h
    obtain ⟨-, rfl⟩ := Prod.mk.inj (Except.ok.inj h)
    exact createWrite_references hwrite

/-- A retry that commits has a registered request. -/
theorem retryTransaction_registered {command : RetryExpired} {id : EvaluationId}
    (hl : LosslessRequests) (hg : Registered db)
    (h : retryTransaction command db = .ok (id, db')) :
    InRegistries db.toReferences command.request := by
  simp only [retryTransaction, bind_eq_ok, orRefuse_eq_ok, reportAs_eq_ok] at h
  obtain ⟨now, -, payload, hpayload, found, hfound, h⟩ := h
  rcases retryLookup_eq_ok hfound with ⟨row, hrow, -, rfl, rfl⟩ | ⟨rfl, -⟩
  · exact (hg.attempt _ row (Table.mem_rows.mp hrow)).of_encode hl hpayload
  · obtain ⟨_, hwrite, -⟩ := bind_eq_ok.mp h
    simp only [retryWrite, bind_eq_ok, orRefuse_eq_ok, refuseIf_eq_ok, reportAs_eq_ok] at hwrite
    obtain ⟨⟨e, a⟩, hcurrent, _, -, _, -, _, -, _, -, current, hdecode, _, hsame, -⟩ := hwrite
    obtain ⟨-, ha⟩ := Database.current?_eq_some.mp hcurrent
    obtain ⟨current', hdecode', hregistered⟩ := hg.attempt _ a ha
    obtain rfl := Except.ok.inj (hdecode'.symm.trans hdecode)
    exact hregistered.sameSemantics (Bool.not_eq_false _ ▸ hsame)

omit [Wire] in
/-- A transaction that does not commit is refused and rolled back. -/
private theorem transact_refused {α β : Type} {transaction : Except StoreError (α × Database)}
    (after : α → Database → Except StoreError β) (h : ∀ a db', transaction ≠ .ok (a, db')) :
    ∃ e, transact transaction after db = (.error e, db) := by
  cases transaction with
  | ok result => exact absurd rfl (h result.1 result.2)
  | error e => exact ⟨e, rfl⟩

/-- **References are immutable** across the whole store: stored requests agree on every
reference whose id they share, and a creation or retry that would not is refused. -/
structure ImmutableReferences (db : Database) : Prop where
  agree : ∀ k l a b r s, db.attempts.find? k = some a → db.attempts.find? l = some b →
    decodeEvaluationRequest a.requestPayload = .ok r →
      decodeEvaluationRequest b.requestPayload = .ok s → AgreeOnReferences r s
  create : ∀ command k a r, db.attempts.find? k = some a →
    decodeEvaluationRequest a.requestPayload = .ok r →
      ¬AgreeOnReferences command.request r →
        ∃ e, createEvaluation command db = (.error e, db)
  retry : ∀ command k a r, db.attempts.find? k = some a →
    decodeEvaluationRequest a.requestPayload = .ok r →
      ¬AgreeOnReferences command.request r → ∃ e, retryExpired command db = (.error e, db)

/-- **Immutable references.** -/
theorem immutable_references (hl : LosslessRequests) (hr : store.Reachable db) :
    ImmutableReferences db := by
  have hg := registered_of_reachable hl hr
  refine ⟨fun k l a b r s ha hb hr hs => ?_, fun command k a r ha hr hnot => ?_,
    fun command k a r ha hr hnot => ?_⟩
  · obtain ⟨r', hr', hregistered⟩ := hg.attempt k a ha
    obtain rfl := Except.ok.inj (hr'.symm.trans hr)
    exact hg.agree hregistered hb hs
  · refine transact_refused _ fun id db' hok => hnot ?_
    -- the registries a creation leaves hold its own request and every stored one
    obtain ⟨he, hregistered⟩ := createTransaction_registered hl hg hok
    obtain ⟨r', hr', hstored⟩ := hg.attempt k a ha
    obtain rfl := Except.ok.inj (hr'.symm.trans hr)
    exact hregistered.agree (hstored.extend he)
  · exact transact_refused _ fun id db' hok =>
      hnot (hg.agree (retryTransaction_registered hl hg hok) ha hr)

end Invariant

section Json

attribute [local instance] jsonWire

/-- A new evaluation that asks for the fixture's runtime under another digest. -/
def driftingRequest : EvaluationRequest where
  toEvaluationRequestParts :=
    { fixtureParts with
      requestId := ⟨"req_03", by decide +kernel⟩
      idempotencyKey := ⟨"idem_03", by decide +kernel⟩
      evaluationId := ⟨"eval_03", by decide +kernel⟩
      attemptId := ⟨"attempt_03", by decide +kernel⟩
      runtime := { fixtureParts.runtime with digest := fixtureParts.submission.source.digest } }
  valid := by decide +kernel

theorem driftingRequest_drifts (request : EvaluationRequest)
    (hruntime : request.runtime = fixtureParts.runtime) :
    ¬AgreeOnReferences driftingRequest request := by
  intro h
  have hsame := h.runtime (congrArg (·.runtimeId) hruntime).symm
  rw [hruntime] at hsame
  exact absurd hsame (by decide +kernel)

/-- The store that holds the fixture's two attempts: they share every reference, and the
evaluation that drifts from them is refused. -/
theorem immutable_references_fixture :
    ∃ db a b, store.Reachable db ∧ db.attempts.find? fixtureRequest.attemptId = some a ∧
      db.attempts.find? fixtureNext.attemptId = some b ∧
      decodeEvaluationRequest a.requestPayload = .ok fixtureRequest ∧
      decodeEvaluationRequest b.requestPayload = .ok fixtureNext ∧
      AgreeOnReferences fixtureRequest fixtureNext ∧
      (∃ e, createEvaluation ⟨driftingRequest, fixtureSweep⟩ db = (.error e, db)) ∧
      ∃ e, retryExpired ⟨driftingRequest, fixtureSweep⟩ db = (.error e, db) := by
  obtain ⟨payload, payload', _, db, hr, hpayload, hpayload', h⟩ := exists_retried_fixture
  have hl : LosslessRequests := WireType.json_lossless _
  have hold : db.attempts.find? fixtureRequest.attemptId = some _ := h.old_attempt
  have hnew := h.triple'.attempt
  have hdecode := decode_of_encode hl hpayload
  have hdecode' := decode_of_encode hl hpayload'
  have hrefs := immutable_references hl hr
  have hdrifts := driftingRequest_drifts fixtureNext rfl
  exact ⟨db, _, _, hr, hold, hnew, hdecode, hdecode',
    hrefs.agree _ _ _ _ _ _ hold hnew hdecode hdecode',
    hrefs.create _ _ _ _ hnew hdecode' hdrifts, hrefs.retry _ _ _ _ hnew hdecode' hdrifts⟩

end Json
end OpenOJ
