import OpenOJ.Domain.Result

/-!
# Running an evaluation

`evaluate` runs the stages of a request's plan through an executor, one after the other, and stops
at the first one that does not succeed. An executor (`StageExecutor`) is a step on a state of its
own: it says of what kind it is and what it supports, and it answers each stage with an outcome
(`StageExecution`): a success, with or without a decision, a rejection, a cancellation or a failure.

`EvaluationRun` is the accumulator of the loop: the reports so far, the usage they add up to and the
decision of the check stage. `EvaluationRun.record` adds one outcome and checks it on the way (a
decision belongs to the check stage and to no other, a rejection to a stage that may reject, the
usage stays within the limits), `EvaluationRun.finish` skips the rest of the plan, and
`EvaluationRun.finishSuccess` builds the result of an evaluation that came through.

What it answers is described from the executor's side: by the outcomes it handed over
(`StageExecutor.outcomes`) and by how they end (`ending`).

* `leadsTo_of_evaluate`: a result is what the executor's outcomes lead to, report by report
  (`StageEntry.Reported`), and in its status, verdict and score;
* `usage_of_evaluate`: the usages of the outcomes together are within the limits.

An error of the domain's own checks is passed on (`applicationFromDomain`); which of them there can
be is proved of the pipeline as a whole.
-/

namespace OpenOJ

open Outcome

/-- Why no result is produced. -/
inductive ApplicationError where
  | unsupportedCapability
  | invalidExecutorOutput (reason : String)
  | domain (error : DomainError)
  deriving DecidableEq, Repr

/-- `ApplicationError::from` a domain error. -/
def applicationFromDomain {α : Type} : Except DomainError α → Except ApplicationError α :=
  translate .domain

/-! ### Executors -/

/-- What the successful check stage decides. -/
structure Decision where
  verdict : Verdict
  score : Score
  valid : verdict = .accepted ∨ verdict = .wrongAnswer
  deriving DecidableEq

/-- `Decision::new`. -/
def Decision.new (verdict : Verdict) (score : Score) : Except ApplicationError Decision :=
  if h : verdict = .accepted ∨ verdict = .wrongAnswer then .ok ⟨verdict, score, h⟩
  else .error (.invalidExecutorOutput
    "the check-stage decision must be accepted or wrong_answer")

/-- What an executor hands over for a stage. -/
inductive StageExecution where
  | succeeded (usage : ResourceUsage) (diagnostics : List Diagnostic)
      (evidence : List EvidenceRef) (decision : Option Decision)
  | rejected (verdict : Verdict) (usage : ResourceUsage) (diagnostics : List Diagnostic)
      (evidence : List EvidenceRef)
  | failed (usage : ResourceUsage) (diagnostics : List Diagnostic) (evidence : List EvidenceRef)
  | cancelled (usage : ResourceUsage) (diagnostics : List Diagnostic)
      (evidence : List EvidenceRef)
  deriving DecidableEq

structure StageContext where
  request : EvaluationRequest
  stage : StageKind

/-- A stage executor. It keeps a state of its own, which executing a stage may change. -/
structure StageExecutor (σ : Type) where
  kind : σ → ExecutorKind
  productionEligible : σ → Bool
  nodeId : σ → Option NodeId
  supports : σ → Capability → Bool
  execute : StageContext → σ → StageExecution × σ

/-! ### The pipeline -/

/-- How an evaluation ends. -/
structure Terminal where
  status : EvaluationStatus
  verdict : Verdict
  score : Score
  deriving DecidableEq

/-- An evaluation under way. -/
structure EvaluationRun where
  request : EvaluationRequest
  reports : List StageReport
  usage : ResourceUsage
  decision : Option Decision
  provenance : ExecutionProvenance

/-- `EvaluationRun::new`. -/
def EvaluationRun.new (request : EvaluationRequest) (provenance : ExecutionProvenance) :
    EvaluationRun :=
  ⟨request, [], .default, none, provenance⟩

/-- `validate_decision_location`. -/
def validateDecisionLocation (stage : StageKind) (decision : Option Decision) :
    Except ApplicationError Unit :=
  refuseIf (decide (stage = .check) ≠ decision.isSome) (.invalidExecutorOutput
    "exactly the successful check stage must produce a decision")

/-- `validate_rejection`. -/
def validateRejection (stage : StageKind) (verdict : Verdict) : Except ApplicationError Unit :=
  let valid : Bool := match stage with
    | .build => verdict = .compileError
    | .run => verdict = .runtimeError ∨ verdict = .timeLimitExceeded ∨
        verdict = .memoryLimitExceeded ∨ verdict = .outputLimitExceeded
    | .prepare | .check | .aggregate => false
  refuseIf (valid = false)
    (.invalidExecutorOutput "stage rejection and verdict are inconsistent")

/-- `zero_score`. -/
def zeroScore : Except ApplicationError Score := applicationFromDomain (Score.new 0 1)

/-- What `record` takes from an outcome. -/
structure StageOutcome where
  status : StageStatus
  usage : ResourceUsage
  diagnostics : List Diagnostic
  evidence : List EvidenceRef
  terminal : Option Terminal
  decision : Option Decision

/-- The match of `record` on an outcome. -/
def StageOutcome.read (stage : StageKind) : StageExecution → Except ApplicationError StageOutcome
  | .succeeded usage diagnostics evidence decision => do
    validateDecisionLocation stage decision
    return ⟨.succeeded, usage, diagnostics, evidence, none, decision⟩
  | .rejected verdict usage diagnostics evidence => do
    validateRejection stage verdict
    let score ← zeroScore
    return ⟨.failed, usage, diagnostics, evidence, some ⟨.completed, verdict, score⟩, none⟩
  | .failed usage diagnostics evidence => do
    let score ← zeroScore
    return ⟨.failed, usage, diagnostics, evidence, some ⟨.failed, .systemError, score⟩, none⟩
  | .cancelled usage diagnostics evidence => do
    let score ← zeroScore
    return ⟨.cancelled, usage, diagnostics, evidence, some ⟨.cancelled, .cancelled, score⟩, none⟩

/-- `append_skipped_reports`. -/
def appendSkippedReports (request : EvaluationRequest) (start : Nat)
    (reports : List StageReport) : Except ApplicationError (List StageReport) :=
  (request.plan.stages.drop start).foldlM (fun reports stage => do
    let report ← applicationFromDomain (StageReport.new stage .skipped .default [] [])
    return reports ++ [report]) reports

/-- `record`: the terminal, when the outcome is one, and the evaluation after it. -/
def EvaluationRun.record (run : EvaluationRun) (index : Nat) (stage : StageKind)
    (outcome : StageExecution) : Except ApplicationError (Option Terminal × EvaluationRun) := do
  let outcome ← StageOutcome.read stage outcome
  let usage ← applicationFromDomain (run.usage.checkedAdd outcome.usage)
  let report ← applicationFromDomain
    (StageReport.new stage outcome.status outcome.usage outcome.diagnostics outcome.evidence)
  let reports := run.reports ++ [report]
  let decision := if stage = .check then outcome.decision else run.decision
  let reports ← (if outcome.terminal.isSome then
      appendSkippedReports run.request (index + 1) reports
    else .ok reports : Except ApplicationError (List StageReport))
  return (outcome.terminal, { run with reports, usage, decision })

/-- `finish`, with `build_result`. -/
def EvaluationRun.finish (run : EvaluationRun) (terminal : Terminal) :
    Except ApplicationError EvaluationResult :=
  applicationFromDomain (EvaluationResult.new
    { identity := .fromRequest run.request
      status := terminal.status
      verdict := terminal.verdict
      score := terminal.score
      stages := run.reports
      usage := run.usage
      diagnostics := []
      evidence := []
      provenance := run.provenance })

/-- `finish_success`. -/
def EvaluationRun.finishSuccess (run : EvaluationRun) :
    Except ApplicationError EvaluationResult :=
  match run.decision with
  | none => .error (.invalidExecutorOutput "the check stage did not produce a decision")
  | some decision => run.finish ⟨.completed, decision.verdict, decision.score⟩

section Evaluate

variable {σ : Type} (executor : StageExecutor σ) (request : EvaluationRequest)

/-- The loop of `evaluate`, from a stage on. -/
def evaluateStages (index : Nat) :
    List StageKind → σ → EvaluationRun → Except ApplicationError EvaluationResult × σ
  | [], state, run => (run.finishSuccess, state)
  | stage :: stages, state, run =>
    let (outcome, state) := executor.execute ⟨request, stage⟩ state
    match run.record index stage outcome with
    | .error e => (.error e, state)
    | .ok (some terminal, run) => (run.finish terminal, state)
    | .ok (none, run) => evaluateStages (index + 1) stages state run

/-- `evaluate`, with the state it leaves the executor in. -/
def evaluate (state : σ) : Except ApplicationError EvaluationResult × σ :=
  if request.requiredCapabilities.any fun capability => !executor.supports state capability then
    (.error .unsupportedCapability, state)
  else
    match applicationFromDomain (ExecutionProvenance.new (executor.kind state)
        (executor.productionEligible state) request.runtime.digest (executor.nodeId state)) with
    | .error e => (.error e, state)
    | .ok provenance =>
      evaluateStages executor request 0 request.plan.stages state (.new request provenance)

end Evaluate

/-! ### What the executor handed over -/

def StageExecution.status : StageExecution → StageStatus
  | .succeeded .. => .succeeded
  | .rejected .. | .failed .. => .failed
  | .cancelled .. => .cancelled

def StageExecution.usage : StageExecution → ResourceUsage
  | .succeeded usage .. | .rejected _ usage .. | .failed usage .. | .cancelled usage .. => usage

def StageExecution.diagnostics : StageExecution → List Diagnostic
  | .succeeded _ diagnostics .. | .rejected _ _ diagnostics _ | .failed _ diagnostics _
  | .cancelled _ diagnostics _ => diagnostics

def StageExecution.evidence : StageExecution → List EvidenceRef
  | .succeeded _ _ evidence _ | .rejected _ _ _ evidence | .failed _ _ evidence
  | .cancelled _ _ evidence => evidence

/-- How an outcome ends an evaluation, when it is not a success. -/
def StageExecution.terminal : StageExecution → Option Terminal
  | .succeeded .. => none
  | .rejected verdict .. => some ⟨.completed, verdict, noPoints⟩
  | .failed .. => some ⟨.failed, .systemError, noPoints⟩
  | .cancelled .. => some ⟨.cancelled, .cancelled, noPoints⟩

def StageExecution.decision : StageExecution → Option Decision
  | .succeeded _ _ _ decision => decision
  | _ => none

/-- A stage of the plan with its outcome, or with none when it was never executed. -/
structure StageEntry where
  stage : StageKind
  outcome : Option StageExecution

def StageEntry.status (entry : StageEntry) : StageStatus :=
  (entry.outcome.map (·.status)).getD .skipped

def StageEntry.usage (entry : StageEntry) : ResourceUsage :=
  (entry.outcome.map (·.usage)).getD .default

def StageEntry.diagnostics (entry : StageEntry) : List Diagnostic :=
  (entry.outcome.map (·.diagnostics)).getD []

def StageEntry.evidence (entry : StageEntry) : List EvidenceRef :=
  (entry.outcome.map (·.evidence)).getD []

/-- The outcomes the executor hands over for these stages: stages after the first one that does
not succeed are never executed. -/
def StageExecutor.outcomes {σ : Type} (executor : StageExecutor σ) (request : EvaluationRequest) :
    List StageKind → σ → List StageEntry
  | [], _ => []
  | stage :: stages, state =>
    let (outcome, state) := executor.execute ⟨request, stage⟩ state
    ⟨stage, some outcome⟩ ::
      if outcome.terminal = none then executor.outcomes request stages state
      else stages.map (⟨·, none⟩)

/-- How outcomes end an evaluation, given what has been decided before them. -/
def ending : Option Decision → List StageEntry → Option Terminal
  | decision, [] => decision.map fun decision => ⟨.completed, decision.verdict, decision.score⟩
  | _, ⟨_, none⟩ :: _ => none
  | decision, ⟨stage, some outcome⟩ :: entries =>
    match outcome.terminal with
    | some terminal => some terminal
    | none => ending (if stage = .check then outcome.decision else decision) entries

/-! ### What is answered -/

/-- The report says what became of the stage. -/
structure StageEntry.Reported (entry : StageEntry) (report : StageReport) : Prop where
  stage : report.stage = entry.stage
  status : report.status = entry.status
  usage : report.usage = entry.usage
  diagnostics : report.diagnostics = entry.diagnostics
  evidence : report.evidence = entry.evidence

/-- From where the evaluation stands, these outcomes lead to this result. -/
structure EvaluationRun.LeadsTo (run : EvaluationRun) (entries : List StageEntry)
    (result : EvaluationResult) : Prop where
  identity : result.identity = .fromRequest run.request
  provenance : result.provenance = run.provenance
  diagnostics : result.diagnostics = []
  evidence : result.evidence = []
  ending : ending run.decision entries = some ⟨result.status, result.verdict, result.score⟩
  reports : ∃ reports, List.Forall₂ StageEntry.Reported entries reports ∧
    result.stages = run.reports ++ reports ∧
      result.usage.toResourceUsageParts =
        run.usage.toResourceUsageParts.plus (aggregateUsage reports)

theorem applicationFromDomain_eq_ok {α : Type} {x : Except DomainError α} {a : α} :
    applicationFromDomain x = .ok a ↔ x = .ok a :=
  translate_eq_ok

theorem StageOutcome.read_eq_ok {stage : StageKind} {execution : StageExecution}
    {outcome : StageOutcome} (h : StageOutcome.read stage execution = .ok outcome) :
    outcome = ⟨execution.status, execution.usage, execution.diagnostics, execution.evidence,
      execution.terminal, execution.decision⟩ := by
  cases execution with
  | succeeded usage diagnostics evidence decision =>
    obtain ⟨-, -, h⟩ := bind_eq_ok.mp h
    exact (Except.ok.inj h).symm
  | rejected verdict usage diagnostics evidence =>
    obtain ⟨-, -, h⟩ := bind_eq_ok.mp h
    exact (Except.ok.inj h).symm
  | failed usage diagnostics evidence => exact (Except.ok.inj h).symm
  | cancelled usage diagnostics evidence => exact (Except.ok.inj h).symm

/-- The report of a stage that was never executed. -/
def skippedReport (stage : StageKind) : StageReport :=
  ⟨stage, .skipped, .default, [], [], Nat.zero_le _, Nat.zero_le _⟩

theorem appendSkippedReports_eq (request : EvaluationRequest) (start : Nat)
    (reports : List StageReport) :
    appendSkippedReports request start reports =
      .ok (reports ++ (request.plan.stages.drop start).map skippedReport) := by
  unfold appendSkippedReports
  generalize request.plan.stages.drop start = stages
  induction stages generalizing reports with
  | nil => simp [pure, Except.pure]
  | cons stage stages ih =>
    rw [List.foldlM_cons]
    exact (ih (reports ++ [skippedReport stage])).trans (by simp)

private theorem reported_skipped (stages : List StageKind) :
    List.Forall₂ StageEntry.Reported (stages.map (⟨·, none⟩)) (stages.map skippedReport) := by
  rw [List.forall₂_map_left_iff, List.forall₂_map_right_iff]
  exact List.forall₂_same.mpr fun stage _ => ⟨rfl, rfl, rfl, rfl, rfl⟩

private theorem aggregateUsage_skipped (stages : List StageKind) :
    aggregateUsage (stages.map skippedReport) = ⟨0, 0, 0, 0⟩ := by
  induction stages with
  | nil => rfl
  | cons stage stages ih =>
    rw [List.map_cons, aggregateUsage_cons, ih]
    rfl

/-- What recording an outcome does, however it goes on. -/
theorem record_eq_ok {run run' : EvaluationRun} {index : Nat} {stage : StageKind}
    {outcome : StageExecution} {terminal : Option Terminal}
    (h : run.record index stage outcome = .ok (terminal, run')) :
    terminal = outcome.terminal ∧ run'.request = run.request ∧ run'.provenance = run.provenance ∧
      run'.usage.toResourceUsageParts =
        run.usage.toResourceUsageParts.plus outcome.usage.toResourceUsageParts ∧
      run'.decision = (if stage = .check then outcome.decision else run.decision) ∧
      ∃ report, StageEntry.Reported ⟨stage, some outcome⟩ report ∧
        run'.reports = run.reports ++ report :: (if outcome.terminal = none then [] else
          (run.request.plan.stages.drop (index + 1)).map skippedReport) := by
  obtain ⟨parts, hparts, h⟩ := bind_eq_ok.mp h
  obtain rfl := StageOutcome.read_eq_ok hparts
  obtain ⟨usage, husage, h⟩ := bind_eq_ok.mp h
  obtain ⟨report, hreport, h⟩ := bind_eq_ok.mp h
  obtain ⟨reports, hreports, h⟩ := bind_eq_ok.mp h
  obtain ⟨rfl, rfl⟩ : outcome.terminal = terminal ∧ _ = run' := Prod.mk.inj (Except.ok.inj h)
  rw [applicationFromDomain_eq_ok] at husage hreport
  refine ⟨rfl, rfl, rfl, ResourceUsage.checkedAdd_eq_ok.mp husage, rfl, report, ?_, ?_⟩
  · unfold StageReport.new at hreport
    split at hreport <;> [split at hreport; skip] <;> cases hreport
    exact ⟨rfl, rfl, rfl, rfl, rfl⟩
  · show reports = _
    cases hterminal : outcome.terminal with
    | none =>
      simp only [hterminal, Option.isSome_none, Bool.false_eq_true, if_false] at hreports
      rw [if_pos rfl]
      exact (Except.ok.inj hreports).symm
    | some _ =>
      simp only [hterminal, Option.isSome_some, if_true, appendSkippedReports_eq] at hreports
      rw [if_neg (by simp), ← Except.ok.inj hreports, List.append_assoc]
      rfl

/-- Whoever finishes with this terminal answers with what was recorded. -/
theorem finish_eq_ok {run : EvaluationRun} {terminal : Terminal}
    {result : EvaluationResult} (h : run.finish terminal = .ok result) :
    result.toEvaluationResultParts =
      { identity := .fromRequest run.request
        status := terminal.status
        verdict := terminal.verdict
        score := terminal.score
        stages := run.reports
        usage := run.usage
        diagnostics := []
        evidence := []
        provenance := run.provenance } :=
  EvaluationResult.new_eq_ok.mp (applicationFromDomain_eq_ok.mp h)

section Evaluate

variable {σ : Type} {executor : StageExecutor σ} {request : EvaluationRequest}

/-- The loop answers what the outcomes lead to, by induction on the stages left. -/
private theorem leadsTo_of_evaluateStages {index : Nat} {stages : List StageKind} {state : σ}
    {run : EvaluationRun} {result : EvaluationResult}
    (hstages : run.request.plan.stages.drop index = stages)
    (h : (evaluateStages executor request index stages state run).1 = .ok result) :
    run.LeadsTo (executor.outcomes request stages state) result := by
  induction stages generalizing index state run with
  | nil =>
    have hdecision : ∃ decision, run.decision = some decision ∧
        run.finish ⟨.completed, decision.verdict, decision.score⟩ = .ok result := by
      unfold evaluateStages EvaluationRun.finishSuccess at h
      cases hdecision : run.decision with
      | none => simp [hdecision] at h
      | some decision => exact ⟨decision, rfl, by simpa [hdecision] using h⟩
    obtain ⟨decision, hdecision, hfinish⟩ := hdecision
    have hparts := finish_eq_ok hfinish
    obtain ⟨parts, _⟩ := result
    subst hparts
    refine ⟨rfl, rfl, rfl, rfl, by simp [StageExecutor.outcomes, ending, hdecision], [], .nil,
      by simp, ?_⟩
    exact (ResourceUsageParts.plus_zero _).symm
  | cons stage stages ih =>
    have hrest : run.request.plan.stages.drop (index + 1) = stages := by
      rw [← List.drop_drop, hstages, List.drop_one, List.tail_cons]
    unfold evaluateStages at h
    unfold StageExecutor.outcomes
    rcases hexecute : executor.execute ⟨request, stage⟩ state with ⟨outcome, state'⟩
    simp only [hexecute] at h ⊢
    cases hrecord : run.record index stage outcome with
    | error e => simp [hrecord] at h
    | ok recorded =>
      obtain ⟨terminal, run'⟩ := recorded
      obtain ⟨rfl, hrequest, hprovenance, husage, hdecision, report, hreported, hreports⟩ :=
        record_eq_ok hrecord
      cases hterminal : outcome.terminal with
      | some terminal =>
        -- the stage ends the evaluation, and the rest of the plan is skipped
        simp only [hrecord, hterminal] at h
        rw [hterminal, if_neg (by simp), hrest] at hreports
        have hparts := finish_eq_ok h
        obtain ⟨parts, _⟩ := result
        subst hparts
        refine ⟨congrArg EvaluationIdentity.fromRequest hrequest, hprovenance, rfl, rfl,
          by simp [ending, hterminal], report :: stages.map skippedReport, ?_, hreports, ?_⟩
        · rw [if_neg (by simp)]
          exact .cons hreported (reported_skipped stages)
        · rw [aggregateUsage_cons, aggregateUsage_skipped, hreported.usage,
            ResourceUsageParts.plus_zero]
          exact husage
      | none =>
        simp only [hrecord, hterminal] at h
        obtain ⟨hidentity, hprov, hdiagnostics, hevidence, hending, reports, hreps, hstages',
          hagg⟩ := ih (hrequest ▸ hrest) h
        rw [hterminal, if_pos rfl] at hreports
        refine ⟨hrequest ▸ hidentity, hprov.trans hprovenance, hdiagnostics, hevidence, ?_,
          report :: reports, ?_, ?_, ?_⟩
        · rw [if_pos rfl]
          simp only [ending, hterminal]
          rw [← hdecision, hending]
        · rw [if_pos rfl]
          exact .cons hreported hreps
        · rw [hstages', hreports]
          simp
        · rw [aggregateUsage_cons, ← ResourceUsageParts.plus_assoc, hreported.usage]
          exact husage ▸ hagg

/-- **What an evaluation answers.** A result is what the executor's outcomes lead to. -/
theorem leadsTo_of_evaluate {state : σ} {result : EvaluationResult}
    (h : (evaluate executor request state).1 = .ok result) :
    ∃ provenance, ExecutionProvenance.new (executor.kind state)
        (executor.productionEligible state) request.runtime.digest (executor.nodeId state) =
          .ok provenance ∧
      (EvaluationRun.new request provenance).LeadsTo
        (executor.outcomes request request.plan.stages state) result := by
  unfold evaluate at h
  split at h
  · cases h
  · split at h
    · cases h
    · rename_i provenance hprovenance
      exact ⟨provenance, applicationFromDomain_eq_ok.mp hprovenance,
        leadsTo_of_evaluateStages rfl h⟩

/-- An evaluation's usage is what its stages used together. -/
theorem usage_of_evaluate {state : σ} {result : EvaluationResult}
    (h : (evaluate executor request state).1 = .ok result) :
    result.usage.toResourceUsageParts = aggregateUsage result.stages := by
  obtain ⟨provenance, -, hleads⟩ := leadsTo_of_evaluate h
  obtain ⟨reports, -, hstages, husage⟩ := hleads.reports
  rw [hstages, husage]
  exact ResourceUsageParts.zero_plus _

end Evaluate
end OpenOJ
