import Mathlib.Data.List.Induction
import OpenOJ.Application.Evaluate

/-!
# The pipeline, call by call

`evaluate` reaches its executor only through the calls it makes, and what it answers is a function
of what these calls handed over. An executor that keeps a record of its calls makes both precise
(`StageExecutor.recorded`, `StageExecutor.calls`): it cannot be told apart from the one it records
(`StageExecutor.Matches`, `evaluate_recorded`), and its record is there when the evaluation is over.

Three definitions say what a record may look like and what becomes of it:

* `FollowsPlan`: the calls are made for the plan's stages in order, until one does not succeed;
* `Acceptable`: each call decides where it has to and nowhere else, fits its stage, and the usage of
  all of them is within the limits; `Refused` is the one error for each way in which this fails;
* `Concludes`: the result's reports are those of the calls, and skipped ones for the rest of the
  plan, and its status, verdict and score are how the calls end (`Ends`).

The invariant of the loop is `EvaluationRun.Records`: what the accumulator holds is what the calls
so far come to. Recording a call succeeds exactly when the calls with it are acceptable
(`EvaluationRun.Records.exists_record`), and both ways of finishing succeed
(`EvaluationRun.Records.exists_finishSuccess`, `EvaluationRun.Records.exists_finish`): nothing that
was acceptable is rejected by the constructor of results.

`evaluate_pipeline` puts them together for every executor: an evaluation without the capabilities
never calls it, and otherwise `Settles` holds of its record and its answer. `Settles.next_call` and
`Settles.continues` are the two rules by which a particular executor's record is found, call by
call.
-/

namespace OpenOJ

open Outcome

/-! ### Executors that cannot be told apart -/

section Start

variable {σ : Type} (executor : StageExecutor σ) (request : EvaluationRequest)

/-- How an evaluation starts. -/
def StageExecutor.start (state : σ) : Except ApplicationError EvaluationRun := do
  refuseIf (request.requiredCapabilities.any fun capability =>
    !executor.supports state capability) .unsupportedCapability
  let provenance ← applicationFromDomain (ExecutionProvenance.new (executor.kind state)
    (executor.productionEligible state) request.runtime.digest (executor.nodeId state))
  return .new request provenance

theorem evaluate_eq (state : σ) :
    evaluate executor request state =
      match executor.start request state with
      | .error e => (.error e, state)
      | .ok run => evaluateStages executor request 0 request.plan.stages state run := by
  unfold evaluate StageExecutor.start refuseIf
  split
  · rfl
  · cases applicationFromDomain (ExecutionProvenance.new (executor.kind state)
      (executor.productionEligible state) request.runtime.digest (executor.nodeId state)) <;> rfl

end Start

/-- In related states two executors describe themselves alike, and hand over the same. -/
structure StageExecutor.Matches {σ τ : Type} (executor : StageExecutor σ)
    (other : StageExecutor τ) (R : σ → τ → Prop) : Prop where
  kind : ∀ {s t}, R s t → executor.kind s = other.kind t
  productionEligible : ∀ {s t}, R s t → executor.productionEligible s = other.productionEligible t
  nodeId : ∀ {s t}, R s t → executor.nodeId s = other.nodeId t
  supports : ∀ {s t}, R s t → executor.supports s = other.supports t
  execute : ∀ context {s t}, R s t →
    (executor.execute context s).1 = (other.execute context t).1 ∧
      R (executor.execute context s).2 (other.execute context t).2

namespace StageExecutor.Matches

variable {σ τ : Type} {executor : StageExecutor σ} {other : StageExecutor τ} {R : σ → τ → Prop}

private theorem evaluateStages (h : executor.Matches other R) (request : EvaluationRequest)
    (index : Nat) (stages : List StageKind) {s : σ} {t : τ} (hst : R s t) (run : EvaluationRun) :
    (OpenOJ.evaluateStages executor request index stages s run).1 =
        (OpenOJ.evaluateStages other request index stages t run).1 ∧
      R (OpenOJ.evaluateStages executor request index stages s run).2
        (OpenOJ.evaluateStages other request index stages t run).2 := by
  induction stages generalizing index s t run with
  | nil => exact ⟨rfl, hst⟩
  | cons stage stages ih =>
    obtain ⟨houtcome, hnext⟩ := h.execute ⟨request, stage⟩ hst
    rcases hexecute : executor.execute ⟨request, stage⟩ s with ⟨outcome, s'⟩
    rcases hother : other.execute ⟨request, stage⟩ t with ⟨outcome', t'⟩
    rw [hexecute, hother] at houtcome hnext
    obtain rfl : outcome = outcome' := houtcome
    unfold OpenOJ.evaluateStages
    simp only [hexecute, hother]
    rcases run.record index stage outcome with e | ⟨_ | terminal, run'⟩
    · exact ⟨rfl, hnext⟩
    · exact ih (index + 1) hnext run'
    · exact ⟨rfl, hnext⟩

/-- An evaluation does not tell them apart. -/
theorem evaluate (h : executor.Matches other R) (request : EvaluationRequest) {s : σ} {t : τ}
    (hst : R s t) :
    (OpenOJ.evaluate executor request s).1 = (OpenOJ.evaluate other request t).1 ∧
      R (OpenOJ.evaluate executor request s).2 (OpenOJ.evaluate other request t).2 := by
  have hstart : executor.start request s = other.start request t := by
    unfold StageExecutor.start
    rw [h.kind hst, h.productionEligible hst, h.nodeId hst, h.supports hst]
  rw [evaluate_eq, evaluate_eq, hstart]
  cases other.start request t with
  | error e => exact ⟨rfl, hst⟩
  | ok run => exact h.evaluateStages request 0 _ hst run

end StageExecutor.Matches

/-! ### The record -/

/-- A call of an executor, with what it handed over. -/
structure StageCall where
  context : StageContext
  outcome : StageExecution

/-- An executor that keeps a record of its calls. -/
def StageExecutor.recorded {σ : Type} (executor : StageExecutor σ) :
    StageExecutor (σ × List StageCall) where
  kind state := executor.kind state.1
  productionEligible state := executor.productionEligible state.1
  nodeId state := executor.nodeId state.1
  supports state := executor.supports state.1
  execute context state :=
    let (outcome, next) := executor.execute context state.1
    (outcome, next, state.2 ++ [⟨context, outcome⟩])

/-- The calls of an evaluation. -/
def StageExecutor.calls {σ : Type} (executor : StageExecutor σ) (request : EvaluationRequest)
    (state : σ) : List StageCall :=
  (evaluate executor.recorded request (state, [])).2.2

/-- The calls are what the executor hands over when it is called so, one after the other. -/
def StageExecutor.Runs {σ : Type} (executor : StageExecutor σ) : List StageCall → σ → σ → Prop
  | [], state, final => final = state
  | call :: calls, state, final =>
    (executor.execute call.context state).1 = call.outcome ∧
      executor.Runs calls (executor.execute call.context state).2 final

section Recorded

variable {σ : Type} (executor : StageExecutor σ) (request : EvaluationRequest)

theorem recorded_execute (context : StageContext) (state : σ) (calls : List StageCall) :
    executor.recorded.execute context (state, calls) =
      ((executor.execute context state).1, (executor.execute context state).2,
        calls ++ [⟨context, (executor.execute context state).1⟩]) := rfl

private theorem evaluateStages_runs (index : Nat) (stages : List StageKind) (state : σ)
    (calls : List StageCall) (run : EvaluationRun) :
    ∃ made,
      (evaluateStages executor.recorded request index stages (state, calls) run).2.2 =
        calls ++ made ∧
      executor.Runs made state
        (evaluateStages executor.recorded request index stages (state, calls) run).2.1 := by
  induction stages generalizing index state calls run with
  | nil => exact ⟨[], (List.append_nil _).symm, rfl⟩
  | cons stage stages ih =>
    rcases hexecute : executor.execute ⟨request, stage⟩ state with ⟨outcome, next⟩
    have hfirst : (executor.execute ⟨request, stage⟩ state).1 = outcome ∧
        (executor.execute ⟨request, stage⟩ state).2 = next :=
      ⟨congrArg Prod.fst hexecute, congrArg Prod.snd hexecute⟩
    unfold evaluateStages
    simp only [recorded_execute, hexecute]
    rcases hrecord : run.record index stage outcome with e | ⟨_ | terminal, run'⟩
    · exact ⟨[⟨⟨request, stage⟩, outcome⟩], rfl, hfirst.1, hfirst.2.symm⟩
    · obtain ⟨made, hmade, hruns⟩ :=
        ih (index + 1) next (calls ++ [⟨⟨request, stage⟩, outcome⟩]) run'
      refine ⟨⟨⟨request, stage⟩, outcome⟩ :: made, ?_, hfirst.1, ?_⟩
      · rw [hmade, List.append_assoc, List.singleton_append]
      · rw [hfirst.2]
        exact hruns
    · exact ⟨[⟨⟨request, stage⟩, outcome⟩], rfl, hfirst.1, hfirst.2.symm⟩

/-- Keeping a record changes neither the answer nor what becomes of the executor. -/
theorem evaluate_recorded (state : σ) :
    (evaluate executor.recorded request (state, [])).1 = (evaluate executor request state).1 ∧
      (evaluate executor.recorded request (state, [])).2.1 =
        (evaluate executor request state).2 :=
  have hmatches : executor.recorded.Matches executor fun kept state => kept.1 = state :=
    { kind := fun h => congrArg executor.kind h
      productionEligible := fun h => congrArg executor.productionEligible h
      nodeId := fun h => congrArg executor.nodeId h
      supports := fun h => congrArg executor.supports h
      execute := fun _ _ _ h => h ▸ ⟨rfl, rfl⟩ }
  hmatches.evaluate request rfl

/-- The record is of what happened. -/
theorem runs_calls (state : σ) :
    executor.Runs (executor.calls request state) state (evaluate executor request state).2 := by
  have hstart : executor.recorded.start request (state, []) = executor.start request state := rfl
  rw [← (evaluate_recorded executor request state).2, StageExecutor.calls, evaluate_eq, hstart]
  cases executor.start request state with
  | error e => exact rfl
  | ok run =>
    obtain ⟨made, hmade, hruns⟩ :=
      evaluateStages_runs executor request 0 request.plan.stages state [] run
    rw [List.nil_append] at hmade
    rw [hmade]
    exact hruns

end Recorded

/-! ### What cannot be accepted -/

/-- A success decides exactly when it is one of the check stage. -/
def StageCall.Decides (call : StageCall) : Prop :=
  match call.outcome with
  | .succeeded _ _ _ decision => call.context.stage = .check ↔ decision.isSome
  | _ => True

/-- A rejection has a verdict of its stage. -/
def StageCall.Fits (call : StageCall) : Prop :=
  match call.context.stage, call.outcome with
  | .build, .rejected verdict _ _ _ => verdict = .compileError
  | .run, .rejected verdict _ _ _ =>
    verdict = .runtimeError ∨ verdict = .timeLimitExceeded ∨ verdict = .memoryLimitExceeded ∨
      verdict = .outputLimitExceeded
  | _, .rejected .. => False
  | _, _ => True

/-- An outcome's diagnostics and evidence fit into a report. -/
structure StageCall.WithinLimits (call : StageCall) : Prop where
  diagnostics : call.outcome.diagnostics.length ≤ maxStageDiagnostics
  evidence : call.outcome.evidence.length ≤ maxStageEvidence

/-- What calls used together. -/
def usageOf (calls : List StageCall) : ResourceUsageParts :=
  calls.foldl (fun usage call => usage.plus call.outcome.usage.toResourceUsageParts) ⟨0, 0, 0, 0⟩

/-- Everything an evaluation accepts of its calls. -/
structure Acceptable (calls : List StageCall) : Prop where
  decides : ∀ call ∈ calls, call.Decides
  fits : ∀ call ∈ calls, call.Fits
  withinLimits : ∀ call ∈ calls, call.WithinLimits
  usage : (usageOf calls).Bounded

/-- Why an evaluation answers with an error. -/
inductive Refused {σ : Type} (executor : StageExecutor σ) (request : EvaluationRequest) (state : σ)
    (calls : List StageCall) : Prop where
  | capability (capability : Capability) (required : capability ∈ request.requiredCapabilities)
      (unsupported : executor.supports state capability = false)
  | provenance (inadmissible : executor.productionEligible state = true ∧
      (executor.kind state = .developmentMock ∨ executor.nodeId state = none))
  | decision (call : StageCall) (called : call ∈ calls) (misplaced : ¬call.Decides)
  | rejection (call : StageCall) (called : call ∈ calls) (unfit : ¬call.Fits)
  | collection (call : StageCall) (called : call ∈ calls) (oversized : ¬call.WithinLimits)
  | usage (excessive : ¬(usageOf calls).Bounded)

/-! ### What is concluded -/

/-- The report of a stage that was never executed. -/
structure StageReport.Skips (report : StageReport) (stage : StageKind) : Prop where
  stage : report.stage = stage
  status : report.status = .skipped
  usage : report.usage.toResourceUsageParts = ⟨0, 0, 0, 0⟩
  diagnostics : report.diagnostics = []
  evidence : report.evidence = []

/-- The report of a call. -/
structure StageReport.Reports (report : StageReport) (call : StageCall) : Prop where
  stage : report.stage = call.context.stage
  status : report.status = call.outcome.status
  usage : report.usage = call.outcome.usage
  diagnostics : report.diagnostics = call.outcome.diagnostics
  evidence : report.evidence = call.outcome.evidence

/-- How the last outcome ends an evaluation; when it is a success, all stages were, and the check
stage has decided. -/
def Ends (request : EvaluationRequest) (calls : List StageCall) (terminal : Terminal) : Prop :=
  ∃ call, calls.getLast? = some call ∧
    match call.outcome with
    | .rejected verdict _ _ _ => terminal = ⟨.completed, verdict, noPoints⟩
    | .failed _ _ _ => terminal = ⟨.failed, .systemError, noPoints⟩
    | .cancelled _ _ _ => terminal = ⟨.cancelled, .cancelled, noPoints⟩
    | .succeeded _ _ _ _ => calls.length = request.plan.stages.length ∧
        ∃ check ∈ calls, check.context.stage = .check ∧ ∃ decision,
          check.outcome.decision = some decision ∧
            terminal = ⟨.completed, decision.verdict, decision.score⟩

/-- What an evaluation answers after these calls. -/
structure Concludes (request : EvaluationRequest) (provenance : ExecutionProvenance)
    (calls : List StageCall) (result : EvaluationResult) : Prop where
  identity : result.identity = .fromRequest request
  stages : ∃ reports skipped, List.Forall₂ StageReport.Reports reports calls ∧
    List.Forall₂ StageReport.Skips skipped (request.plan.stages.drop calls.length) ∧
      result.stages = reports ++ skipped
  usage : result.usage.toResourceUsageParts = usageOf calls
  provenance : result.provenance = provenance
  diagnostics : result.diagnostics = []
  evidence : result.evidence = []
  ends : Ends request calls ⟨result.status, result.verdict, result.score⟩

/-- The calls of an evaluation are the plan's stages in order, as long as they succeed. -/
structure FollowsPlan (request : EvaluationRequest) (calls : List StageCall) : Prop where
  contexts : calls.map (·.context) =
    (request.plan.stages.take calls.length).map (⟨request, ·⟩)
  stops : ∀ call ∈ calls.dropLast, call.outcome.status = .succeeded

/-! ### Ending well -/

private theorem findIdx?_middle {α : Type} {p : α → Bool} {before after : List α} {a : α}
    (hbefore : ∀ b ∈ before, p b = false) (ha : p a = true) :
    (before ++ a :: after).findIdx? p = some before.length := by
  rw [List.findIdx?_append, List.findIdx?_eq_none_iff.mpr hbefore, List.findIdx?_cons, if_pos ha]
  simp

section Pattern

variable {before after : List StageReport} {report : StageReport}

/-- The pattern a terminal result has: succeeded stages, the terminal one, and skipped stages. -/
structure TerminalPattern (before : List StageReport) (report : StageReport)
    (after : List StageReport) : Prop where
  before : ∀ r ∈ before, r.status = .succeeded
  after : ∀ r ∈ after, r.status = .skipped

private theorem TerminalPattern.any (h : TerminalPattern before report after) :
    ((before ++ report :: after).take before.length).any (fun r => r.status != .succeeded) = false ∧
      ((before ++ report :: after).drop (before.length + 1)).any
        (fun r => r.status != .skipped) = false := by
  rw [List.take_left, ← List.drop_drop, List.drop_left, List.drop_one, List.tail_cons]
  constructor
  · refine List.any_eq_false.mpr fun r hr => ?_
    rw [h.before r hr]
    decide
  · refine List.any_eq_false.mpr fun r hr => ?_
    rw [h.after r hr]
    decide

theorem TerminalPattern.validateTerminalStagePattern (h : TerminalPattern before report after)
    (hstatus : report.status ≠ .succeeded) :
    validateTerminalStagePattern (before ++ report :: after) report.status = .ok () := by
  have hindex : (before ++ report :: after).findIdx? (fun r => r.status = report.status) =
      some before.length := by
    refine findIdx?_middle (fun r hr => ?_) (decide_eq_true rfl)
    rw [h.before r hr]
    exact decide_eq_false hstatus.symm
  obtain ⟨hbefore, hafter⟩ := h.any
  simp only [OpenOJ.validateTerminalStagePattern, hindex, orRefuse_some, ok_bind, hbefore, hafter]
  rfl

theorem TerminalPattern.validateRejectedStage (h : TerminalPattern before report after)
    (hstatus : report.status = .failed) (hstage : ∀ r ∈ before, r.stage ≠ report.stage) :
    validateRejectedStage (before ++ report :: after) report.stage = .ok () := by
  have hindex : (before ++ report :: after).findIdx? (fun r => r.stage = report.stage) =
      some before.length :=
    findIdx?_middle (fun r hr => decide_eq_false (hstage r hr)) (decide_eq_true rfl)
  have hreport : (before ++ report :: after)[before.length]? = some report := by
    rw [List.getElem?_append_right (Nat.le_refl _), Nat.sub_self, List.getElem?_cons_zero]
  obtain ⟨hbefore, hafter⟩ := h.any
  simp only [OpenOJ.validateRejectedStage, hindex, orRefuse_some, ok_bind, hreport, hbefore, hafter,
    Option.any_some, hstatus]
  rfl

/-- An outcome that fits its stage ends an evaluation well. -/
theorem TerminalPattern.validateTerminalSemantics (h : TerminalPattern before report after)
    {call : StageCall} (hreport : report.Reports call) (hfits : call.Fits)
    (hstage : ∀ r ∈ before, r.stage ≠ report.stage) {terminal : Terminal}
    (hterminal : call.outcome.terminal = some terminal) :
    validateTerminalSemantics terminal.status terminal.verdict terminal.score
      (before ++ report :: after) = .ok () := by
  obtain ⟨⟨request, stage⟩, outcome⟩ := call
  have hkind : report.stage = stage := hreport.stage
  have hstatus : report.status = outcome.status := hreport.status
  cases outcome with
  | succeeded usage diagnostics evidence decision => cases hterminal
  | failed usage diagnostics evidence =>
    cases hterminal
    have hpattern := h.validateTerminalStagePattern (hstatus.trans_ne nofun)
    rw [hstatus] at hpattern
    exact hpattern
  | cancelled usage diagnostics evidence =>
    cases hterminal
    have hpattern := h.validateTerminalStagePattern (hstatus.trans_ne nofun)
    rw [hstatus] at hpattern
    exact hpattern
  | rejected verdict usage diagnostics evidence =>
    cases hterminal
    have hrejected := h.validateRejectedStage hstatus hstage
    rw [hkind] at hrejected
    -- only the build and the run stage have verdicts that fit
    cases stage with
    | prepare | check | aggregate => exact hfits.elim
    | build =>
      obtain rfl : verdict = .compileError := hfits
      simp only [OpenOJ.validateTerminalSemantics, hrejected]
      rfl
    | run =>
      obtain rfl | rfl | rfl | rfl := hfits <;>
      · simp only [OpenOJ.validateTerminalSemantics, hrejected]
        rfl

end Pattern

/-! ### What the calls so far come to -/

theorem usageOf_concat (calls : List StageCall) (call : StageCall) :
    usageOf (calls ++ [call]) =
      (usageOf calls).plus call.outcome.usage.toResourceUsageParts := by
  rw [usageOf, List.foldl_concat]
  rfl

/-- An evaluation under way has recorded these calls, and all of them were successes. -/
structure EvaluationRun.Records (run : EvaluationRun) (calls : List StageCall) : Prop where
  contexts : calls.map (·.context) =
    (run.request.plan.stages.take calls.length).map (⟨run.request, ·⟩)
  succeeded : ∀ call ∈ calls, call.outcome.terminal = none
  acceptable : Acceptable calls
  reports : List.Forall₂ StageReport.Reports run.reports calls
  usage : run.usage.toResourceUsageParts = usageOf calls
  decided : ∀ decision, run.decision = some decision →
    ∃ call ∈ calls, call.context.stage = .check ∧ call.outcome.decision = some decision
  decides : ∀ call ∈ calls, call.context.stage = .check → run.decision.isSome

theorem EvaluationRun.records_new (request : EvaluationRequest) (provenance : ExecutionProvenance) :
    (EvaluationRun.new request provenance).Records [] where
  contexts := rfl
  succeeded := by simp
  acceptable := ⟨by simp, by simp, by simp, ResourceUsageParts.validate_eq_ok.mp (by decide)⟩
  reports := .nil
  usage := rfl
  decided := nofun
  decides := by simp

/-- An outcome can be read exactly when it decides and rejects as its stage does. -/
theorem StageOutcome.exists_read {request : EvaluationRequest} {stage : StageKind}
    {outcome : StageExecution} :
    (∃ parts, StageOutcome.read stage outcome = .ok parts) ↔
      StageCall.Decides ⟨⟨request, stage⟩, outcome⟩ ∧
        StageCall.Fits ⟨⟨request, stage⟩, outcome⟩ := by
  cases outcome with
  | succeeded usage diagnostics evidence decision =>
    have hfits : StageCall.Fits
        ⟨⟨request, stage⟩, .succeeded usage diagnostics evidence decision⟩ := by
      cases stage <;> trivial
    simp only [StageOutcome.read, validateDecisionLocation, bind_eq_ok, refuseIf_eq_ok, ne_eq,
      not_not, exists_const, exists_and_left, StageCall.Decides, hfits, and_true]
    rw [← Bool.coe_iff_coe, decide_eq_true_iff]
    exact and_iff_left ⟨_, rfl⟩
  | rejected verdict usage diagnostics evidence =>
    have hscore : zeroScore = .ok noPoints := rfl
    simp only [StageOutcome.read, hscore, validateRejection, bind_eq_ok, refuseIf_eq_ok,
      exists_const, exists_and_left, StageCall.Decides, true_and, ok_bind, Bool.not_eq_false]
    cases stage <;> simp [StageCall.Fits, pure, Except.pure]
  | failed usage diagnostics evidence =>
    refine iff_of_true ⟨_, rfl⟩ ⟨trivial, ?_⟩
    cases stage <;> trivial
  | cancelled usage diagnostics evidence =>
    refine iff_of_true ⟨_, rfl⟩ ⟨trivial, ?_⟩
    cases stage <;> trivial

theorem StageReport.exists_new {stage : StageKind} {status : StageStatus} {usage : ResourceUsage}
    {diagnostics : List Diagnostic} {evidence : List EvidenceRef} :
    (∃ report, StageReport.new stage status usage diagnostics evidence = .ok report) ↔
      diagnostics.length ≤ maxStageDiagnostics ∧ evidence.length ≤ maxStageEvidence := by
  unfold StageReport.new
  split
  · split
    · exact iff_of_true ⟨_, rfl⟩ ⟨‹_›, ‹_›⟩
    · exact iff_of_false (by rintro ⟨_, ⟨⟩⟩) fun h => absurd h.2 ‹_›
  · exact iff_of_false (by rintro ⟨_, ⟨⟩⟩) fun h => absurd h.1 ‹_›

section Record

variable {run : EvaluationRun} {calls : List StageCall} {stage : StageKind}
  {outcome : StageExecution}

theorem acceptable_concat {call : StageCall} (h : Acceptable calls) :
    Acceptable (calls ++ [call]) ↔ (call.Decides ∧ call.Fits) ∧
      ((usageOf calls).plus call.outcome.usage.toResourceUsageParts).Bounded ∧
        call.WithinLimits := by
  rw [← usageOf_concat]
  constructor
  · intro hall
    have hmem : call ∈ calls ++ [call] := List.mem_append_right _ (List.mem_singleton_self _)
    exact ⟨⟨hall.decides call hmem, hall.fits call hmem⟩, hall.usage, hall.withinLimits call hmem⟩
  · rintro ⟨⟨hdecides, hfits⟩, husage, hlimits⟩
    have hforall {P : StageCall → Prop} (hcalls : ∀ c ∈ calls, P c) (hcall : P call) :
        ∀ c ∈ calls ++ [call], P c := by
      intro c hc
      rcases List.mem_append.mp hc with hc | hc
      · exact hcalls c hc
      · exact List.mem_singleton.mp hc ▸ hcall
    exact ⟨hforall h.decides hdecides, hforall h.fits hfits, hforall h.withinLimits hlimits, husage⟩

/-- What is acceptable was so all along. -/
theorem Acceptable.of_prefix {before : List StageCall} (h : Acceptable calls)
    (hbefore : before <+: calls) : Acceptable before := by
  obtain ⟨after, rfl⟩ := hbefore
  induction after using List.reverseRecOn with
  | nil => rwa [List.append_nil] at h
  | append_singleton after last ih =>
    rw [← List.append_assoc] at h
    have husage := h.usage
    rw [usageOf_concat] at husage
    have hmem {call : StageCall} (hcall : call ∈ before ++ after) :
        call ∈ before ++ after ++ [last] := List.mem_append_left _ hcall
    refine ih ⟨fun call hcall => h.decides call (hmem hcall),
      fun call hcall => h.fits call (hmem hcall),
      fun call hcall => h.withinLimits call (hmem hcall), ?_⟩
    exact ⟨Nat.le_of_add_right_le husage.cpuTimeMs, Nat.le_of_add_right_le husage.wallTimeMs,
      Nat.le_trans (Nat.le_max_left _ _) husage.memoryPeakBytes,
      Nat.le_of_add_right_le husage.outputBytes⟩

/-- **Recording a call** succeeds exactly when the calls with it are acceptable. -/
theorem EvaluationRun.Records.exists_record (h : run.Records calls) (index : Nat) :
    (∃ recorded, run.record index stage outcome = .ok recorded) ↔
      Acceptable (calls ++ [⟨⟨run.request, stage⟩, outcome⟩]) := by
  rw [acceptable_concat h.acceptable, ← StageOutcome.exists_read, ← h.usage]
  constructor
  · rintro ⟨recorded, hrecord⟩
    obtain ⟨parts, hparts, hrecord⟩ := bind_eq_ok.mp hrecord
    obtain rfl := StageOutcome.read_eq_ok hparts
    obtain ⟨usage, husage, hrecord⟩ := bind_eq_ok.mp hrecord
    obtain ⟨report, hreport, -⟩ := bind_eq_ok.mp hrecord
    rw [applicationFromDomain_eq_ok] at husage hreport
    obtain ⟨hdiagnostics, hevidence⟩ := StageReport.exists_new.mp ⟨report, hreport⟩
    refine ⟨⟨_, hparts⟩, ?_, hdiagnostics, hevidence⟩
    exact ResourceUsage.checkedAdd_eq_ok.mp husage ▸
      ResourceUsageParts.validate_eq_ok.mp usage.valid
  · rintro ⟨⟨parts, hparts⟩, husage, hlimits⟩
    obtain rfl := StageOutcome.read_eq_ok hparts
    obtain ⟨usage, husage⟩ := ResourceUsage.exists_new.mpr husage
    obtain ⟨report, hreport⟩ : ∃ report, StageReport.new stage outcome.status outcome.usage
        outcome.diagnostics outcome.evidence = .ok report :=
      StageReport.exists_new.mpr ⟨hlimits.diagnostics, hlimits.evidence⟩
    have hadd := ResourceUsage.checkedAdd_eq_ok.mpr (ResourceUsage.new_eq_ok.mp husage)
    simp only [EvaluationRun.record, hparts, ok_bind, hadd, hreport, applicationFromDomain,
      translate_ok, appendSkippedReports_eq]
    split <;> exact ⟨_, rfl⟩

/-- What recording a success leaves. -/
theorem EvaluationRun.Records.record (h : run.Records calls) {run' : EvaluationRun}
    (hstage : run.request.plan.stages[calls.length]? = some stage)
    (hrecord : run.record calls.length stage outcome = .ok (none, run')) :
    run'.request = run.request ∧ run'.provenance = run.provenance ∧
      run'.Records (calls ++ [⟨⟨run.request, stage⟩, outcome⟩]) := by
  have hacceptable := (h.exists_record calls.length).mp ⟨_, hrecord⟩
  obtain ⟨hterminal, hrequest, hprovenance, husage, hdecision, report, hreported, hreports⟩ :=
    record_eq_ok hrecord
  rw [← hterminal, if_pos rfl] at hreports
  have hdecides := hacceptable.decides _ (List.mem_append_right _ (List.mem_singleton_self _))
  refine ⟨hrequest, hprovenance, ?_, ?_, hacceptable, ?_, ?_, ?_, ?_⟩
  · -- the contexts are those of the plan so far
    rw [List.map_append, h.contexts, hrequest, List.length_append, List.length_singleton,
      List.take_add_one, hstage, List.map_append]
    rfl
  · intro call hcall
    rcases List.mem_append.mp hcall with hcall | hcall
    · exact h.succeeded call hcall
    · rw [List.mem_singleton.mp hcall]
      exact hterminal.symm
  · rw [hreports]
    exact List.rel_append h.reports (.cons ⟨hreported.stage, hreported.status, hreported.usage,
      hreported.diagnostics, hreported.evidence⟩ .nil)
  · rw [husage, h.usage, usageOf_concat]
  · -- the check stage's own decision, or one from before
    intro decision hsome
    rw [hdecision] at hsome
    split_ifs at hsome with hcheck
    · exact ⟨_, List.mem_append_right _ (List.mem_singleton_self _), hcheck, hsome⟩
    · obtain ⟨call, hcall, hfound⟩ := h.decided decision hsome
      exact ⟨call, List.mem_append_left _ hcall, hfound⟩
  · intro call hcall hcheck
    rw [hdecision]
    split_ifs with hstagecheck
    · cases outcome with
      | succeeded usage diagnostics evidence decision => exact hdecides.mp hstagecheck
      | rejected | failed | cancelled => cases hterminal
    · rcases List.mem_append.mp hcall with hcall | hcall
      · exact h.decides call hcall hcheck
      · rw [List.mem_singleton.mp hcall] at hcheck
        exact absurd hcheck hstagecheck

/-! ### Finishing -/

theorem reports_map {reports : List StageReport}
    (h : List.Forall₂ StageReport.Reports reports calls) :
    reports.map (·.stage) = calls.map (·.context.stage) ∧
      reports.map (·.status) = calls.map (·.outcome.status) := by
  induction h with
  | nil => exact ⟨rfl, rfl⟩
  | cons hreport _ ih =>
    simp only [List.map_cons, hreport.stage, hreport.status, ih, and_self]

theorem EvaluationRun.Records.stages (h : run.Records calls) :
    run.reports.map (·.stage) = run.request.plan.stages.take calls.length := by
  have hcontexts := congrArg (List.map (·.stage)) h.contexts
  rw [List.map_map, List.map_map] at hcontexts
  exact (reports_map h.reports).1.trans (hcontexts.trans (List.map_id _))

theorem EvaluationRun.Records.status (h : run.Records calls) :
    ∀ call ∈ calls, call.outcome.status = .succeeded := by
  intro call hcall
  have hnone := h.succeeded call hcall
  cases houtcome : call.outcome with
  | succeeded => rfl
  | rejected | failed | cancelled => rw [houtcome] at hnone; cases hnone

theorem EvaluationRun.Records.reportStatus (h : run.Records calls) :
    ∀ report ∈ run.reports, report.status = .succeeded := by
  intro report hreport
  have hmem := List.mem_map_of_mem (f := (·.status)) hreport
  rw [(reports_map h.reports).2] at hmem
  obtain ⟨call, hcall, hstatus⟩ := List.mem_map.mp hmem
  exact hstatus.symm.trans (h.status call hcall)

theorem EvaluationRun.Records.follows (h : run.Records calls) : FollowsPlan run.request calls :=
  ⟨h.contexts, fun call hcall => h.status call (List.dropLast_subset _ hcall)⟩

/-- With a report for each stage of the plan and a terminal that goes with them, an evaluation can
only finish. -/
theorem EvaluationRun.exists_finish {terminal : Terminal}
    (hstages : run.reports.map (·.stage) = run.request.plan.stages)
    (hprovenance : run.provenance.runtimeDigest = run.request.runtime.digest)
    (hterminal : validateTerminalSemantics terminal.status terminal.verdict terminal.score
      run.reports = .ok ()) :
    ∃ result, run.finish terminal = .ok result := by
  have hvalid : EvaluationResultParts.validate
      { identity := .fromRequest run.request
        status := terminal.status
        verdict := terminal.verdict
        score := terminal.score
        stages := run.reports
        usage := run.usage
        diagnostics := []
        evidence := []
        provenance := run.provenance } = .ok () :=
    EvaluationResultParts.validate_eq_ok.mpr ⟨hstages.trans run.request.plan.canonical,
      Nat.zero_le _, Nat.zero_le _, hprovenance, hterminal⟩
  exact ⟨_, applicationFromDomain_eq_ok.mpr (EvaluationResult.new_of_valid hvalid)⟩

/-- **After the last success** the check stage's decision is the result. -/
theorem EvaluationRun.Records.exists_finishSuccess (h : run.Records calls)
    (hprovenance : run.provenance.runtimeDigest = run.request.runtime.digest)
    (hlength : calls.length = run.request.plan.stages.length) :
    ∃ result, run.finishSuccess = .ok result ∧
      Concludes run.request run.provenance calls result := by
  have hstages : run.reports.map (·.stage) = run.request.plan.stages := by
    rw [h.stages, hlength, List.take_length]
  -- the check stage is one of the calls
  have hcheck : ∃ call ∈ calls, call.context.stage = .check := by
    have hmem : StageKind.check ∈ calls.map (·.context.stage) := by
      rw [← (reports_map h.reports).1, hstages, run.request.plan.canonical]
      decide
    exact List.mem_map.mp hmem
  obtain ⟨call, hcall, hcheck⟩ := hcheck
  obtain ⟨decision, hdecision⟩ := Option.isSome_iff_exists.mp (h.decides call hcall hcheck)
  have hsucceeded : run.reports.any (fun report => report.status != .succeeded) = false := by
    refine List.any_eq_false.mpr fun report hreport => ?_
    rw [h.reportStatus report hreport]
    decide
  have hterminal : validateTerminalSemantics .completed decision.verdict decision.score
      run.reports = .ok () := by
    obtain ⟨verdict, score, rfl | rfl⟩ := decision <;>
    · simp only [validateTerminalSemantics, hsucceeded]
      rfl
  obtain ⟨result, hfinish⟩ :
      ∃ result, run.finish ⟨.completed, decision.verdict, decision.score⟩ = .ok result :=
    EvaluationRun.exists_finish hstages hprovenance hterminal
  have hparts := finish_eq_ok hfinish
  refine ⟨result, by rw [EvaluationRun.finishSuccess, hdecision]; exact hfinish, ?_⟩
  obtain ⟨parts, _⟩ := result
  subst hparts
  refine ⟨rfl, ⟨run.reports, [], h.reports, ?_, (List.append_nil _).symm⟩, h.usage, rfl, rfl, rfl,
    ?_⟩
  · rw [hlength, List.drop_length]
    exact .nil
  · have hne : calls ≠ [] := List.ne_nil_of_mem hcall
    refine ⟨calls.getLast hne, List.getLast?_eq_some_getLast hne, ?_⟩
    have hlast := h.succeeded _ (List.getLast_mem hne)
    obtain ⟨check, hmem, hstage, hsome⟩ := h.decided decision hdecision
    cases houtcome : (calls.getLast hne).outcome with
    | succeeded => exact ⟨hlength, check, hmem, hstage, decision, hsome, rfl⟩
    | rejected | failed | cancelled => rw [houtcome] at hlast; cases hlast

/-- **After any other outcome** the rest of the plan is skipped, and the outcome is the result. -/
theorem EvaluationRun.Records.exists_finish (h : run.Records calls) {run' : EvaluationRun}
    {terminal : Terminal} (hprovenance : run.provenance.runtimeDigest = run.request.runtime.digest)
    (hstage : run.request.plan.stages[calls.length]? = some stage)
    (hrecord : run.record calls.length stage outcome = .ok (some terminal, run')) :
    FollowsPlan run.request (calls ++ [⟨⟨run.request, stage⟩, outcome⟩]) ∧
      ∃ result, run'.finish terminal = .ok result ∧
        Concludes run.request run.provenance (calls ++ [⟨⟨run.request, stage⟩, outcome⟩])
          result := by
  have hacceptable := (h.exists_record calls.length).mp ⟨_, hrecord⟩
  have hfits := hacceptable.fits _ (List.mem_append_right _ (List.mem_singleton_self _))
  obtain ⟨hterminal, hrequest, hprovenance', husage, -, report, hreported, hreports⟩ :=
    record_eq_ok hrecord
  have hreport : report.Reports ⟨⟨run.request, stage⟩, outcome⟩ :=
    ⟨hreported.stage, hreported.status, hreported.usage, hreported.diagnostics, hreported.evidence⟩
  rw [← hterminal, if_neg nofun] at hreports
  -- the plan is what was reported, this stage, and what is skipped
  have hlength : calls.length < run.request.plan.stages.length :=
    (List.getElem?_eq_some_iff.mp hstage).1
  have hplan : run.request.plan.stages = run.request.plan.stages.take calls.length ++
      stage :: run.request.plan.stages.drop (calls.length + 1) := by
    obtain ⟨_, hget⟩ := List.getElem?_eq_some_iff.mp hstage
    rw [← hget, List.getElem_cons_drop, List.take_append_drop]
  have hstages : run'.reports.map (·.stage) = run'.request.plan.stages := by
    rw [hreports, hrequest, List.map_append, h.stages, List.map_cons, hreport.stage, List.map_map]
    exact (congrArg (_ ++ stage :: ·) (List.map_id _)).trans hplan.symm
  have hpattern : TerminalPattern run.reports report
      ((run.request.plan.stages.drop (calls.length + 1)).map skippedReport) := by
    refine ⟨h.reportStatus, fun r hr => ?_⟩
    obtain ⟨_, -, rfl⟩ := List.mem_map.mp hr
    rfl
  have hother : ∀ r ∈ run.reports, r.stage ≠ report.stage := by
    intro r hr heq
    have hnodup : run.request.plan.stages.Nodup := by
      rw [run.request.plan.canonical]
      decide
    rw [hplan, ← h.stages] at hnodup
    have hmem : stage ∈ run.reports.map (·.stage) :=
      List.mem_map.mpr ⟨r, hr, heq.trans hreport.stage⟩
    exact (List.nodup_append.mp hnodup).2.2 stage hmem stage List.mem_cons_self rfl
  have hvalid := hpattern.validateTerminalSemantics hreport hfits hother hterminal.symm
  rw [← hreports] at hvalid
  obtain ⟨result, hfinish⟩ := EvaluationRun.exists_finish hstages
    (by rw [hprovenance', hprovenance, hrequest]) hvalid
  refine ⟨⟨?_, ?_⟩, result, hfinish, ?_⟩
  · rw [List.map_append, h.contexts, List.length_append, List.length_singleton, List.take_add_one,
      hstage, List.map_append]
    rfl
  · rw [List.dropLast_concat]
    exact h.status
  · have hparts := finish_eq_ok hfinish
    obtain ⟨parts, _⟩ := result
    subst hparts
    refine ⟨congrArg EvaluationIdentity.fromRequest hrequest, ?_, ?_, hprovenance', rfl, rfl, ?_⟩
    · refine ⟨run.reports ++ [report], _, List.rel_append h.reports (.cons hreport .nil), ?_,
        hreports.trans (by rw [List.append_assoc, List.singleton_append])⟩
      rw [List.length_append, List.length_singleton, List.forall₂_map_left_iff]
      exact List.forall₂_same.mpr fun _ _ => ⟨rfl, rfl, rfl, rfl, rfl⟩
    · rw [usageOf_concat, ← h.usage]
      exact husage
    · refine ⟨_, List.getLast?_concat, ?_⟩
      cases outcome with
      | succeeded => cases hterminal
      | rejected | failed | cancelled => cases hterminal; rfl

end Record

/-! ### Every evaluation -/

/-- An error of `EvaluationResult.new`. -/
def DomainError.OfResult : DomainError → Prop
  | .invalidResult _ => True
  | .tooManyItems field _ _ => field = "result.diagnostics" ∨ field = "result.evidence"
  | .invalidProvenance reason =>
    reason = "result provenance must match the requested runtime digest"
  | _ => False

/-- How an evaluation goes that has started: it follows the plan, stops at the first call that is
not acceptable, and answers a result when all are, and else an error that is not one of building the
result. -/
structure Settles (request : EvaluationRequest) (provenance : ExecutionProvenance)
    (calls : List StageCall) (answer : Except ApplicationError EvaluationResult) : Prop where
  follows : FollowsPlan request calls
  acceptable : Acceptable calls.dropLast
  answer : match answer with
    | .ok result => Acceptable calls ∧ Concludes request provenance calls result
    | .error error => ¬Acceptable calls ∧ ∀ e, error = .domain e → ¬e.OfResult

/-- As long as the calls are acceptable and succeed, the evaluation goes on. -/
theorem Settles.continues {request : EvaluationRequest} {provenance : ExecutionProvenance}
    {calls : List StageCall} {answer : Except ApplicationError EvaluationResult}
    (h : Settles request provenance calls answer) (hacceptable : Acceptable calls)
    (hlast : ∀ call ∈ calls.getLast?, call.outcome.status = .succeeded) :
    calls.length = request.plan.stages.length := by
  obtain ⟨-, -, hanswer⟩ := h
  cases answer with
  | error error => exact absurd hacceptable hanswer.1
  | ok result =>
    obtain ⟨call, hcall, hends⟩ := hanswer.2.ends
    have hstatus := hlast call hcall
    cases houtcome : call.outcome with
    | succeeded usage diagnostics evidence decision =>
      rw [houtcome] at hends
      exact hends.1
    | rejected | failed | cancelled => rw [houtcome] at hstatus; cases hstatus

/-- The call after these, when the plan has one: it is made, and others follow it only when it is
acceptable and succeeds. -/
theorem Settles.next_call {request : EvaluationRequest} {provenance : ExecutionProvenance}
    (before : List StageCall) {rest : List StageCall}
    {answer : Except ApplicationError EvaluationResult}
    (h : Settles request provenance (before ++ rest) answer) (hacceptable : Acceptable before)
    (hsucceeded : ∀ call ∈ before, call.outcome.status = .succeeded) {stage : StageKind}
    (hstage : request.plan.stages[before.length]? = some stage) :
    ∃ outcome later, rest = ⟨⟨request, stage⟩, outcome⟩ :: later ∧
      (later ≠ [] → outcome.status = .succeeded ∧
        Acceptable (before ++ [⟨⟨request, stage⟩, outcome⟩])) := by
  obtain ⟨hlength, -⟩ := List.getElem?_eq_some_iff.mp hstage
  rcases rest with _ | ⟨⟨context, outcome⟩, later⟩
  · rw [List.append_nil] at h
    have hall := h.continues hacceptable fun call hcall =>
      hsucceeded call (List.mem_of_getLast? hcall)
    omega
  · have hcontext := congrArg (·[before.length]?) h.follows.contexts
    simp only [List.map_append, List.map_cons, List.getElem?_map, List.getElem?_take,
      List.length_append, List.length_cons] at hcontext
    rw [List.getElem?_append_right (Nat.le_of_eq (List.length_map _)), List.length_map,
      Nat.sub_self, List.getElem?_cons_zero, if_pos (by omega), hstage] at hcontext
    obtain rfl : context = ⟨request, stage⟩ := Option.some_inj.mp hcontext
    refine ⟨outcome, later, rfl, fun hlater => ?_⟩
    have hdrop : (before ++ ⟨⟨request, stage⟩, outcome⟩ :: later).dropLast =
        before ++ ⟨⟨request, stage⟩, outcome⟩ :: later.dropLast := by
      rw [List.dropLast_append_of_ne_nil (List.cons_ne_nil _ _),
        List.dropLast_cons_of_ne_nil hlater]
    refine ⟨h.follows.stops ⟨⟨request, stage⟩, outcome⟩ ?_, h.acceptable.of_prefix ?_⟩
    · rw [hdrop]
      exact List.mem_append_right _ List.mem_cons_self
    · rw [hdrop]
      exact ⟨later.dropLast, by rw [List.append_assoc, List.singleton_append]⟩

theorem Settles.length_le {request : EvaluationRequest} {provenance : ExecutionProvenance}
    {calls : List StageCall} {answer : Except ApplicationError EvaluationResult}
    (h : Settles request provenance calls answer) :
    calls.length ≤ request.plan.stages.length := by
  have hcontexts := congrArg List.length h.follows.contexts
  rw [List.length_map, List.length_map, List.length_take] at hcontexts
  omega

private theorem validateTerminalSemantics_error {status : EvaluationStatus} {verdict : Verdict}
    {score : Score} {stages : List StageReport} {e : DomainError}
    (h : validateTerminalSemantics status verdict score stages = .error e) : e.OfResult := by
  have hrejected {kind : StageKind} (h : validateRejectedStage stages kind = .error e) :
      e.OfResult := by
    simp only [validateRejectedStage, bind_eq_error, orRefuse_eq_error, refuseIf_eq_error] at h
    rcases h with ⟨-, rfl⟩ | ⟨_, -, -, rfl⟩ <;> trivial
  have hpattern {terminal : StageStatus}
      (h : validateTerminalStagePattern stages terminal = .error e) : e.OfResult := by
    simp only [validateTerminalStagePattern, bind_eq_error, orRefuse_eq_error,
      refuseIf_eq_error] at h
    rcases h with ⟨-, rfl⟩ | ⟨_, -, -, rfl⟩ <;> trivial
  cases status with
  | completed =>
    simp only [validateTerminalSemantics, bind_eq_error, refuseIf_eq_error] at h
    rcases h with ⟨-, rfl⟩ | ⟨_, -, h⟩
    · trivial
    · cases verdict with
      | accepted | wrongAnswer =>
        obtain ⟨-, rfl⟩ := refuseIf_eq_error.mp h
        trivial
      | systemError | cancelled => cases h; trivial
      | compileError | runtimeError | timeLimitExceeded | memoryLimitExceeded
      | outputLimitExceeded =>
        simp only [bind_eq_error, refuseIf_eq_error] at h
        rcases h with h | ⟨_, -, -, rfl⟩
        · exact hrejected h
        · trivial
  | failed =>
    simp only [validateTerminalSemantics, bind_eq_error, refuseIf_eq_error] at h
    rcases h with ⟨-, rfl⟩ | ⟨_, -, h⟩
    · trivial
    · exact hpattern h
  | cancelled =>
    simp only [validateTerminalSemantics, bind_eq_error, refuseIf_eq_error] at h
    rcases h with ⟨-, rfl⟩ | ⟨_, -, h⟩
    · trivial
    · exact hpattern h

theorem EvaluationResult.new_error {parts : EvaluationResultParts} {e : DomainError}
    (h : EvaluationResult.new parts = .error e) : e.OfResult := by
  unfold EvaluationResult.new at h
  split at h
  · cases h
  · rename_i hvalidate
    cases h
    simp only [EvaluationResultParts.validate, enforceCollectionLimit, bind_eq_error,
      refuseIf_eq_error] at hvalidate
    rcases hvalidate with ⟨-, rfl⟩ | ⟨_, -, ⟨-, rfl⟩ | ⟨_, -, ⟨-, rfl⟩ | ⟨_, -, ⟨-, rfl⟩ |
      ⟨_, -, ⟨-, rfl⟩ | ⟨_, -, h⟩⟩⟩⟩⟩
    · trivial
    · trivial
    · exact .inl rfl
    · exact .inr rfl
    · exact rfl
    · exact validateTerminalSemantics_error h

private theorem requireRange_error {field : String} {actual minimum maximum : Nat}
    {e : DomainError} (h : requireRange field actual minimum maximum = .error e) : ¬e.OfResult := by
  unfold requireRange at h
  split at h <;> cases h
  exact id

private theorem checkedAdd_error {usage other : ResourceUsage} {e : DomainError}
    (h : usage.checkedAdd other = .error e) : ¬e.OfResult := by
  have hcounter {field : String} {maximum a b : Nat}
      (hcounter : checkedCounter field maximum a b = .error e) : ¬e.OfResult := by
    unfold checkedCounter at hcounter
    split at hcounter <;> cases hcounter
    exact id
  rcases bind_eq_error.mp h with h | ⟨_, -, h⟩
  · exact hcounter h
  rcases bind_eq_error.mp h with h | ⟨_, -, h⟩
  · exact hcounter h
  rcases bind_eq_error.mp h with h | ⟨_, -, h⟩
  · exact hcounter h
  unfold ResourceUsage.new at h
  split at h
  · cases h
  · rename_i hvalidate
    cases h
    simp only [ResourceUsageParts.validate, bind_eq_error] at hvalidate
    rcases hvalidate with h | ⟨_, -, h | ⟨_, -, h | ⟨_, -, h⟩⟩⟩ <;> exact requireRange_error h

private theorem StageReport.new_error {stage : StageKind} {status : StageStatus}
    {usage : ResourceUsage} {diagnostics : List Diagnostic} {evidence : List EvidenceRef}
    {e : DomainError} (h : StageReport.new stage status usage diagnostics evidence = .error e) :
    ¬e.OfResult := by
  unfold StageReport.new at h
  split at h <;> [split at h; skip] <;> cases h <;> exact not_or.mpr ⟨by decide, by decide⟩

private theorem StageOutcome.read_error {stage : StageKind} {outcome : StageExecution}
    {error : ApplicationError} (h : StageOutcome.read stage outcome = .error error) :
    ∃ reason, error = .invalidExecutorOutput reason := by
  have hscore : zeroScore = .ok noPoints := rfl
  cases outcome with
  | succeeded usage diagnostics evidence decision =>
    simp only [StageOutcome.read, validateDecisionLocation, bind_eq_error, refuseIf_eq_error] at h
    rcases h with ⟨-, rfl⟩ | ⟨_, -, h⟩
    · exact ⟨_, rfl⟩
    · cases h
  | rejected verdict usage diagnostics evidence =>
    simp only [StageOutcome.read, validateRejection, hscore, bind_eq_error, refuseIf_eq_error,
      ok_bind] at h
    rcases h with ⟨-, rfl⟩ | ⟨_, -, h⟩
    · exact ⟨_, rfl⟩
    · cases h
  | failed | cancelled => cases h

/-- Recording an outcome never fails as building a result does. -/
private theorem record_error {run : EvaluationRun} {index : Nat} {stage : StageKind}
    {outcome : StageExecution} {e : DomainError}
    (h : run.record index stage outcome = .error (.domain e)) : ¬e.OfResult := by
  have hdomain {α : Type} {x : Except DomainError α}
      (h : applicationFromDomain x = .error (.domain e)) : x = .error e := by
    obtain ⟨_, hx, ⟨⟩⟩ := translate_eq_error.mp h
    exact hx
  rcases bind_eq_error.mp h with h | ⟨parts, -, h⟩
  · obtain ⟨_, ⟨⟩⟩ := StageOutcome.read_error h
  rcases bind_eq_error.mp h with h | ⟨usage, -, h⟩
  · exact checkedAdd_error (hdomain h)
  rcases bind_eq_error.mp h with h | ⟨report, -, h⟩
  · exact StageReport.new_error (hdomain h)
  rcases bind_eq_error.mp h with h | ⟨reports, -, h⟩
  · rw [appendSkippedReports_eq] at h
    split at h <;> cases h
  · cases h

section Loop

variable {σ : Type} {executor : StageExecutor σ} {request : EvaluationRequest}

/-- The loop of `evaluate` settles, by induction on the stages left. -/
private theorem evaluateStages_settles {stages : List StageKind} {state : σ} {run : EvaluationRun}
    {calls : List StageCall} (h : run.Records calls) (hrequest : run.request = request)
    (hprovenance : run.provenance.runtimeDigest = request.runtime.digest)
    (hstages : request.plan.stages.drop calls.length = stages) :
    Settles request run.provenance
      (evaluateStages executor.recorded request calls.length stages (state, calls) run).2.2
      (evaluateStages executor.recorded request calls.length stages (state, calls) run).1 := by
  induction stages generalizing state run calls with
  | nil =>
    subst hrequest
    -- no stage is left: every one has its report
    have hlength : calls.length = run.request.plan.stages.length := by
      have hle := List.drop_eq_nil_iff.mp hstages
      have hcontexts := congrArg List.length h.contexts
      rw [List.length_map, List.length_map, List.length_take] at hcontexts
      omega
    obtain ⟨result, hfinish, hconcludes⟩ := h.exists_finishSuccess hprovenance hlength
    refine ⟨h.follows, h.acceptable.of_prefix (List.dropLast_prefix calls), ?_⟩
    simp only [evaluateStages, hfinish]
    exact ⟨h.acceptable, hconcludes⟩
  | cons stage stages ih =>
    subst hrequest
    have hstage : run.request.plan.stages[calls.length]? = some stage := by
      rw [← List.head?_drop, hstages, List.head?_cons]
    have hrest : run.request.plan.stages.drop (calls.length + 1) = stages := by
      rw [← List.drop_drop, hstages, List.drop_one, List.tail_cons]
    rcases hexecute : executor.execute ⟨run.request, stage⟩ state with ⟨outcome, next⟩
    unfold evaluateStages
    simp only [recorded_execute, hexecute]
    have hcalls : (calls ++ [(⟨⟨run.request, stage⟩, outcome⟩ : StageCall)]).length =
        calls.length + 1 := by
      rw [List.length_append, List.length_singleton]
    rcases hrecord : run.record calls.length stage outcome with e | ⟨_ | terminal, run'⟩
    · -- the call cannot be accepted
      refine ⟨⟨?_, ?_⟩, ?_, ?_, ?_⟩
      · rw [hcalls, List.map_append, h.contexts, List.take_add_one, hstage, List.map_append]
        rfl
      · rw [List.dropLast_concat]
        exact h.status
      · rw [List.dropLast_concat]
        exact h.acceptable
      · intro hacceptable
        obtain ⟨recorded, hok⟩ := (h.exists_record calls.length).mpr hacceptable
        cases hrecord.symm.trans hok
      · rintro e rfl
        exact record_error hrecord
    · -- a success, after which the loop goes on
      obtain ⟨hrequest, hprov, hrecords⟩ := h.record hstage hrecord
      have hsettles := @ih next _ _ hrecords hrequest
        (by rw [hprov, hprovenance]) (by rw [hcalls, hrest])
      rw [hcalls, hprov] at hsettles
      exact hsettles
    · -- any other outcome ends it
      obtain ⟨hfollows, result, hfinish, hconcludes⟩ := h.exists_finish hprovenance hstage hrecord
      refine ⟨hfollows, ?_, ?_⟩
      · rw [List.dropLast_concat]
        exact h.acceptable
      simp only [hfinish]
      exact ⟨(h.exists_record calls.length).mp ⟨_, hrecord⟩, hconcludes⟩

theorem start_eq_ok {state : σ} {run : EvaluationRun} :
    executor.start request state = .ok run ↔
      (∀ capability ∈ request.requiredCapabilities, executor.supports state capability = true) ∧
        ∃ provenance, ExecutionProvenance.new (executor.kind state)
            (executor.productionEligible state) request.runtime.digest (executor.nodeId state) =
              .ok provenance ∧
          EvaluationRun.new request provenance = run := by
  simp only [StageExecutor.start, bind_eq_ok, refuseIf_eq_ok, applicationFromDomain_eq_ok, pure,
    Except.pure, Except.ok.injEq, exists_const, List.any_eq_true, Bool.not_eq_true', not_exists,
    not_and, Bool.not_eq_false]

private theorem start_error {state : σ} {e : DomainError}
    (h : executor.start request state = .error (.domain e)) : ¬e.OfResult := by
  rcases bind_eq_error.mp h with h | ⟨_, -, h⟩
  · cases (refuseIf_eq_error.mp h).2
  rcases bind_eq_error.mp h with h | ⟨_, -, h⟩
  · obtain ⟨_, h, ⟨⟩⟩ := translate_eq_error.mp h
    unfold ExecutionProvenance.new at h
    split at h <;> [split at h; skip] <;> cases h <;>
    · change ¬(_ : String) = _
      decide
  · cases h

/-- The provenance of an executor is refused exactly when it is inadmissible. -/
private theorem provenance_error {kind : ExecutorKind} {productionEligible : Bool}
    {digest : ContentDigest} {nodeId : Option NodeId} :
    (∃ e, ExecutionProvenance.new kind productionEligible digest nodeId = .error e) ↔
      productionEligible = true ∧ (kind = .developmentMock ∨ nodeId = none) := by
  unfold ExecutionProvenance.new
  split_ifs with hmock hnamed
  · exact iff_of_true ⟨_, rfl⟩ ⟨hmock.2, .inl hmock.1⟩
  · exact iff_of_true ⟨_, rfl⟩ ⟨hnamed.1, .inr hnamed.2⟩
  · refine iff_of_false (by rintro ⟨_, ⟨⟩⟩) ?_
    rintro ⟨heligible, hkind | hnode⟩
    · exact hmock ⟨hkind, heligible⟩
    · exact hnamed ⟨heligible, hnode⟩

/-- An evaluation that does not start is refused before any call. -/
private theorem evaluate_of_start_error {state : σ} {error : ApplicationError}
    (h : executor.start request state = .error error) :
    executor.calls request state = [] ∧ (evaluate executor request state).1 = .error error ∧
      Refused executor request state [] := by
  have hrecorded : executor.recorded.start request (state, []) = .error error := h
  refine ⟨by rw [StageExecutor.calls, evaluate_eq, hrecorded], by rw [evaluate_eq, h], ?_⟩
  by_contra hrefused
  -- with every capability supported and the provenance admissible it would have started
  have hsupports : ∀ capability ∈ request.requiredCapabilities,
      executor.supports state capability = true := by
    intro capability hrequired
    by_contra hunsupported
    exact hrefused (.capability capability hrequired (Bool.eq_false_iff.mpr hunsupported))
  rcases ok_or_error (ExecutionProvenance.new (executor.kind state)
    (executor.productionEligible state) request.runtime.digest (executor.nodeId state)) with
    ⟨provenance, hprovenance⟩ | hprovenance
  · have hstart := start_eq_ok.mpr ⟨hsupports, provenance, hprovenance, rfl⟩
    cases h.symm.trans hstart
  · exact hrefused (.provenance (provenance_error.mp hprovenance))

/-- An evaluation that starts settles. -/
theorem settles_of_start {state : σ} {run : EvaluationRun}
    (h : executor.start request state = .ok run) :
    Settles request run.provenance (executor.calls request state)
      (evaluate executor request state).1 := by
  have hrecorded : executor.recorded.start request (state, []) = .ok run := h
  obtain ⟨-, provenance, hprovenance, rfl⟩ := start_eq_ok.mp h
  have hsettles : Settles request provenance
      (evaluate executor.recorded request (state, [])).2.2
      (evaluate executor.recorded request (state, [])).1 := by
    rw [evaluate_eq, hrecorded]
    exact evaluateStages_settles (EvaluationRun.records_new request provenance) rfl
      (ExecutionProvenance.new_eq_ok.mp hprovenance).2.2.1 rfl
  rw [(evaluate_recorded executor request state).1] at hsettles
  exact hsettles

/-- Once an evaluation has started, only its calls can be refused. -/
private theorem refused_of_start {state : σ} {run : EvaluationRun} {calls : List StageCall}
    (h : executor.start request state = .ok run) :
    Refused executor request state calls ↔ ¬Acceptable calls := by
  obtain ⟨hsupports, provenance, hprovenance, -⟩ := start_eq_ok.mp h
  constructor
  · intro hrefused hacceptable
    cases hrefused with
    | capability capability required unsupported =>
      rw [hsupports capability required] at unsupported
      cases unsupported
    | provenance inadmissible =>
      obtain ⟨e, he⟩ := provenance_error.mpr inadmissible
      cases hprovenance.symm.trans he
    | decision call called misplaced => exact misplaced (hacceptable.decides call called)
    | rejection call called unfit => exact unfit (hacceptable.fits call called)
    | collection call called oversized => exact oversized (hacceptable.withinLimits call called)
    | usage excessive => exact excessive hacceptable.usage
  · intro hacceptable
    by_contra hrefused
    refine hacceptable ⟨fun call called => ?_, fun call called => ?_, fun call called => ?_, ?_⟩
    · exact by_contra fun misplaced => hrefused (.decision call called misplaced)
    · exact by_contra fun unfit => hrefused (.rejection call called unfit)
    · exact by_contra fun oversized => hrefused (.collection call called oversized)
    · exact by_contra fun excessive => hrefused (.usage excessive)

/-- **The pipeline.** However its executor behaves, an evaluation calls it for the plan's stages in
order until one does not succeed, fails exactly when something in it cannot be accepted, and else
answers what its calls come to; building the result never fails. -/
theorem evaluate_pipeline {σ : Type} (executor : StageExecutor σ) (request : EvaluationRequest)
    (state : σ) :
    FollowsPlan request (executor.calls request state) ∧
      (∀ result, (evaluate executor request state).1 = .ok result →
        ∃ provenance, ExecutionProvenance.new (executor.kind state)
            (executor.productionEligible state) request.runtime.digest (executor.nodeId state) =
              .ok provenance ∧
          Concludes request provenance (executor.calls request state) result) ∧
      ((∃ error, (evaluate executor request state).1 = .error error) ↔
        Refused executor request state (executor.calls request state)) ∧
      ((∃ capability ∈ request.requiredCapabilities,
          executor.supports state capability = false) → executor.calls request state = []) ∧
      ∀ e, (evaluate executor request state).1 = .error (.domain e) →
        ¬∃ parts, EvaluationResult.new parts = .error e := by
  rcases hstart : executor.start request state with error | run
  · -- it did not start, and nothing was called
    obtain ⟨hcalls, hanswer, hrefused⟩ := evaluate_of_start_error hstart
    rw [hcalls, hanswer]
    refine ⟨⟨rfl, by simp⟩, fun result hok => ?_, iff_of_true ⟨error, rfl⟩ hrefused, fun _ => rfl,
      fun e herror => ?_⟩
    · cases hok
    · rintro ⟨parts, hparts⟩
      cases herror
      exact start_error hstart (EvaluationResult.new_error hparts)
  · obtain ⟨hfollows, -, hanswer⟩ := settles_of_start hstart
    obtain ⟨hsupports, provenance, hprovenance, rfl⟩ := start_eq_ok.mp hstart
    rw [refused_of_start hstart]
    refine ⟨hfollows, fun result hok => ?_, ?_, ?_, fun e herror => ?_⟩
    · rw [hok] at hanswer
      exact ⟨provenance, hprovenance, hanswer.2⟩
    · rcases hevaluate : (evaluate executor request state).1 with error | result
      · rw [hevaluate] at hanswer
        exact iff_of_true ⟨error, rfl⟩ hanswer.1
      · rw [hevaluate] at hanswer
        exact iff_of_false nofun (not_not.mpr hanswer.1)
    · rintro ⟨capability, required, unsupported⟩
      rw [hsupports capability required] at unsupported
      cases unsupported
    · rintro ⟨parts, hparts⟩
      rw [herror] at hanswer
      exact hanswer.2 e rfl (EvaluationResult.new_error hparts)

end Loop
end OpenOJ
