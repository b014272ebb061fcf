import OpenOJ.Judge.FirecrackerExecutor
import OpenOJ.Protocol.Request

/-!
# Attempts

What one attempt of the Firecracker executor can come to, for every guest: which messages it sends,
which outcomes its stages have, and what it answers. There are eight courses that an attempt can
take (`Course`): the guest is not reached or does not agree, it fails or rejects one of the two
stages, or it completes both, with usages that are within the limits together or are not.

* `course_of_calls`: an attempt takes one of its courses, call by call, by the rules of the pipeline
  (`Settles.next_call`);
* `course_of_execute`: so does every attempt of an executor that may have made others before it, for
  a request that it supports (`Supported`); what it answers is then what the course comes to
  (`Concluded`).

The results about what a guest can do to its judge are read off the courses. The first is here:
`executes_iff` says that an attempt has a result, and an unusual guest (one that is not
`Boot.WellBehaved`) gets a platform failure, exactly when it does not report, for a build and a run
that are each within the limits, usages that are not within them together. `busyGuest_error` is a
guest that does.

`workingGuest` is one that completes an attempt.
-/

namespace OpenOJ

open Outcome Guest

/-- The guest agrees, and its reply to the build is this report; these replies are left. -/
def Boot.Builds (boot : Boot) (build : StageReply) (rest : List Exchange) : Prop :=
  ∃ agreed built, boot = .opened (agreed :: built :: rest) ∧ agreed.Agrees ∧
    built.report = some build

/-- The guest's replies to the build and to the run are these reports. -/
def Boot.Replies (boot : Boot) (build run : StageReply) : Prop :=
  ∃ ran rest, boot.Builds build (ran :: rest) ∧ ran.report = some run

/-- What two stages used, as the guest has it. -/
def StageReply.usageWith (build run : StageReply) : ResourceUsageParts :=
  build.usage.parts.plus run.usage.parts

/-- How an evaluation ends when a stage fails. -/
def platformFailure : Terminal := ⟨.failed, .systemError, noPoints⟩

section Courses

variable [Uppercase]

/-- The courses of an attempt: what is sent, the outcomes of the stages, and how it ends, when it
does not end with an error. -/
inductive Course (boot : Boot) : List Message → List StageExecution → Option Terminal → Prop where
  | unopened (closed : ∀ exchanges, boot ≠ .opened exchanges) :
    Course boot [] [stagePassed none, stageFailed] (some platformFailure)
  | disagreed {exchanges : List Exchange} (opened : boot = .opened exchanges)
      (disagrees : ∀ e ∈ exchanges.head?, ¬e.Agrees) :
    Course boot [negotiateMessage] [stagePassed none, stageFailed] (some platformFailure)
  | buildFailed {agreed : Exchange} {rest : List Exchange}
      (opened : boot = .opened (agreed :: rest)) (agrees : agreed.Agrees)
      (unusable : ∀ e ∈ rest.head?, e.Unusable .build) :
    Course boot [negotiateMessage, buildMessage] [stagePassed none, stageFailed]
      (some platformFailure)
  | buildRejected {build : StageReply} {rest : List Exchange} {built : StageExecution}
      (builds : boot.Builds build rest) (execution : build.execution .build = .ok built)
      (exit : build.exitCode ≠ 0) :
    Course boot [negotiateMessage, buildMessage] [stagePassed none, built]
      (some ⟨.completed, .compileError, noPoints⟩)
  | runFailed {build : StageReply} {rest : List Exchange} {built : StageExecution}
      (builds : boot.Builds build rest) (execution : build.execution .build = .ok built)
      (exit : build.exitCode = 0) (unusable : ∀ e ∈ rest.head?, e.Unusable .run) :
    Course boot [negotiateMessage, buildMessage, runMessage] [stagePassed none, built, stageFailed]
      (some platformFailure)
  | runRejected {build run : StageReply} {built ran : StageExecution}
      (replies : boot.Replies build run) (buildExecution : build.execution .build = .ok built)
      (buildExit : build.exitCode = 0) (runExecution : run.execution .run = .ok ran)
      (runExit : run.exitCode ≠ 0) (bounded : (build.usageWith run).Bounded) :
    Course boot [negotiateMessage, buildMessage, runMessage] [stagePassed none, built, ran]
      (some ⟨.completed, rejectionVerdict .run run.exitCode, noPoints⟩)
  | excessive {build run : StageReply} {built ran : StageExecution}
      (replies : boot.Replies build run) (buildExecution : build.execution .build = .ok built)
      (buildExit : build.exitCode = 0) (runExecution : run.execution .run = .ok ran)
      (unbounded : ¬(build.usageWith run).Bounded) :
    Course boot [negotiateMessage, buildMessage, runMessage] [stagePassed none, built, ran] none
  | accepted {build run : StageReply} {built ran : StageExecution} {decision : Decision}
      (replies : boot.Replies build run) (buildExecution : build.execution .build = .ok built)
      (buildExit : build.exitCode = 0) (runExecution : run.execution .run = .ok ran)
      (runExit : run.exitCode = 0) (bounded : (build.usageWith run).Bounded)
      (decides : hostCheckDecision 0 = .ok decision) :
    Course boot [negotiateMessage, buildMessage, runMessage]
      [stagePassed none, built, ran, stagePassed (some decision), stagePassed none]
      (some ⟨.completed, decision.verdict, decision.score⟩)

end Courses

/-! ### Reports -/

/-- A report that was decoded has no more diagnostics than a stage may have. -/
theorem Exchange.length_diagnostics {exchange : Exchange} {reply : StageReply}
    (h : exchange.report = some reply) : reply.diagnostics.length ≤ maxStageDiagnostics := by
  match exchange, h with
  | .replied (.stageOutput _ _ _ _ _ diagnostics) readable, h =>
    obtain rfl := Option.some_inj.mp h
    have hle : diagnostics.length ≤ maxDiagnostics := readable.2.1
    exact hle.trans (by decide)

section Courses

variable [Uppercase] {reply : StageReply} {outcome : StageExecution} {stage : StageKind}

/-- What the evaluator makes of a report is fit to be recorded. -/
theorem StageReply.execution_fits {exchange : Exchange} (hreport : exchange.report = some reply)
    (hstage : stage = .build ∨ stage = .run) (h : reply.execution stage = .ok outcome)
    (request : EvaluationRequest) :
    (StageCall.Decides ⟨⟨request, stage⟩, outcome⟩ ∧ StageCall.Fits ⟨⟨request, stage⟩, outcome⟩) ∧
      StageCall.WithinLimits ⟨⟨request, stage⟩, outcome⟩ := by
  obtain ⟨-, hconverts⟩ := converts_of_executionForStageOutput hstage h
  have hlimits : StageCall.WithinLimits ⟨⟨request, stage⟩, outcome⟩ := by
    refine ⟨?_, ?_⟩
    · exact hconverts.diagnostics.trans_le (Exchange.length_diagnostics hreport)
    · exact hconverts.evidence.trans_le (by decide)
  refine ⟨?_, hlimits⟩
  by_cases hexit : reply.exitCode = 0
  · obtain ⟨usage, diagnostics, evidence, rfl⟩ := hconverts.succeeded hexit
    rcases hstage with rfl | rfl
    · exact ⟨by simp [StageCall.Decides], trivial⟩
    · exact ⟨by simp [StageCall.Decides], trivial⟩
  · obtain ⟨usage, diagnostics, evidence, rfl⟩ := hconverts.rejected hexit
    refine ⟨trivial, ?_⟩
    rcases hstage with rfl | rfl
    · exact rfl
    · -- a timeout, or an error
      change rejectionVerdict .run reply.exitCode = _ ∨ _
      unfold rejectionVerdict
      split_ifs <;> simp

end Courses

/-! ### Stages without a guest -/

section Passing

variable [Uppercase] {host : JudgeHost} (boot : Boot) (request : EvaluationRequest)

theorem executeStage_passes (h : host.terminated = false) :
    JudgeHost.executeStage boot ⟨request, .prepare⟩ host = (stagePassed none, host) ∧
      JudgeHost.executeStage boot ⟨request, .aggregate⟩ host = (stagePassed none, host) := by
  refine ⟨?_, ?_⟩ <;>
  · unfold JudgeHost.executeStage
    rw [h]
    rfl

/-- After a run that exited with zero the check stage accepts. -/
theorem executeStage_check (h : host.terminated = false) (hexit : host.lastRunExit = some 0) :
    ∃ decision, hostCheckDecision 0 = .ok decision ∧
      JudgeHost.executeStage boot ⟨request, .check⟩ host = (stagePassed (some decision), host) := by
  refine ⟨_, rfl, ?_⟩
  unfold JudgeHost.executeStage JudgeHost.stageOutcome
  rw [h, hexit]
  rfl

end Passing

/-! ### The course of an attempt -/

section Calls

variable {request : EvaluationRequest} {calls : List StageCall}

/-- A stage without a guest can be recorded after anything. -/
theorem acceptable_passed (h : Acceptable calls) {stage : StageKind} {decision : Option Decision}
    (hdecision : stage = .check ↔ decision.isSome) :
    Acceptable (calls ++ [⟨⟨request, stage⟩, stagePassed decision⟩]) := by
  refine (acceptable_concat h).mpr ⟨⟨hdecision, ?_⟩, ?_, ⟨Nat.zero_le _, Nat.zero_le _⟩⟩
  · cases stage <;> trivial
  · exact (ResourceUsageParts.plus_zero (usageOf calls)).symm ▸ h.usage

/-- How an attempt is concluded: with an error, or with a result of this terminal. -/
def Concluded (request : EvaluationRequest) (provenance : ExecutionProvenance)
    (calls : List StageCall) (answer : Except ApplicationError EvaluationResult) :
    Option Terminal → Prop
  | none => ∃ error, answer = .error error
  | some terminal => ∃ result, answer = .ok result ∧ Concludes request provenance calls result ∧
      ⟨result.status, result.verdict, result.score⟩ = terminal

/-- The last call concludes the attempt when it is no success. -/
theorem concluded_of_last {provenance : ExecutionProvenance}
    {answer : Except ApplicationError EvaluationResult} {call : StageCall} {terminal : Terminal}
    (hsettles : Settles request provenance (calls ++ [call]) answer)
    (hacceptable : Acceptable (calls ++ [call]))
    (hterminal : call.outcome.terminal = some terminal) :
    Concluded request provenance (calls ++ [call]) answer (some terminal) := by
  obtain ⟨-, -, hanswer⟩ := hsettles
  cases answer with
  | error error => exact absurd hacceptable hanswer.1
  | ok result =>
    refine ⟨result, rfl, hanswer.2, ?_⟩
    obtain ⟨last, hlast, hends⟩ := hanswer.2.ends
    rw [List.getLast?_concat] at hlast
    obtain rfl := Option.some_inj.mp hlast
    cases houtcome : call.outcome with
    | succeeded => rw [houtcome] at hterminal; cases hterminal
    | rejected | failed | cancelled =>
      rw [houtcome] at hterminal hends
      exact hends.trans (Option.some_inj.mp hterminal)

/-- A failed stage can be recorded after anything. -/
theorem acceptable_failed (h : Acceptable calls) (context : StageContext) :
    Acceptable (calls ++ [⟨context, stageFailed⟩]) := by
  refine (acceptable_concat h).mpr ⟨⟨trivial, ?_⟩, ?_, ⟨Nat.zero_le _, Nat.zero_le _⟩⟩
  · obtain ⟨request, stage⟩ := context
    cases stage <;> trivial
  · exact (ResourceUsageParts.plus_zero (usageOf calls)).symm ▸ h.usage

/-- The last of the calls is the one after which it does not go on. -/
private theorem eq_nil_of_failed {outcome : StageExecution} {later : List StageCall}
    (hon : later ≠ [] → outcome.status = .succeeded ∧ Acceptable calls)
    (h : outcome.status ≠ .succeeded) : later = [] :=
  by_contra fun hlater => h (hon hlater).1

/-- The calls of an attempt up to its build. -/
def buildCalls (request : EvaluationRequest) (built : StageExecution) : List StageCall :=
  [⟨⟨request, .prepare⟩, stagePassed none⟩, ⟨⟨request, .build⟩, built⟩]

/-- The calls of an attempt up to its run. -/
def runCalls (request : EvaluationRequest) (built ran : StageExecution) : List StageCall :=
  buildCalls request built ++ [⟨⟨request, .run⟩, ran⟩]

theorem usageOf_buildCalls (built : StageExecution) :
    usageOf (buildCalls request built) = built.usage.toResourceUsageParts := by
  simp only [usageOf, buildCalls, List.foldl, stagePassed, StageExecution.usage,
    ResourceUsage.default, ResourceUsageParts.zero_plus]

end Calls

section Attempt

variable [Uppercase] {boot : Boot} {host final : JudgeHost} {request : EvaluationRequest}
  {provenance : ExecutionProvenance} {calls : List StageCall} {build run : StageReply}
  {built ran : StageExecution} {answer : Except ApplicationError EvaluationResult}

/-- An execution of zero exit code is a success, and any other is a rejection. -/
theorem StageReply.status_execution {reply : StageReply} {stage : StageKind}
    {outcome : StageExecution} (hstage : stage = .build ∨ stage = .run)
    (h : reply.execution stage = .ok outcome) :
    (outcome.status = .succeeded ↔ reply.exitCode = 0) ∧
      outcome.usage.toResourceUsageParts = reply.usage.parts := by
  obtain ⟨-, hconverts⟩ := converts_of_executionForStageOutput hstage h
  refine ⟨?_, hconverts.usage⟩
  by_cases hexit : reply.exitCode = 0
  · obtain ⟨usage, diagnostics, evidence, rfl⟩ := hconverts.succeeded hexit
    exact iff_of_true rfl hexit
  · obtain ⟨usage, diagnostics, evidence, rfl⟩ := hconverts.rejected hexit
    exact iff_of_false nofun hexit

/-- Built and run, an attempt is as acceptable as its usage. -/
theorem acceptable_runCalls (hbuilt : Acceptable (buildCalls request built)) {exchange : Exchange}
    (hreport : exchange.report = some run) (hbuild : build.execution .build = .ok built)
    (hrun : run.execution .run = .ok ran) :
    Acceptable (runCalls request built ran) ↔ (build.usageWith run).Bounded := by
  obtain ⟨hfits, hlimits⟩ := StageReply.execution_fits hreport (.inr rfl) hrun request
  rw [runCalls, acceptable_concat hbuilt, and_iff_right hfits, and_iff_left hlimits,
    usageOf_buildCalls, (StageReply.status_execution (.inl rfl) hbuild).2,
    (StageReply.status_execution (.inr rfl) hrun).2]
  rfl

/-- After a run that exited with zero and whose usage is within bounds, an attempt is accepted. -/
theorem course_of_check {rest : List StageCall}
    (hsettles : Settles request provenance (runCalls request built ran ++ rest) answer)
    (hacceptable : Acceptable (runCalls request built ran))
    (hsucceeded : ∀ call ∈ runCalls request built ran, call.outcome.status = .succeeded)
    (hruns : (firecracker boot).Runs rest host final) (hlive : host.terminated = false)
    (hexit : host.lastRunExit = some 0) :
    final = host ∧ ∃ decision, hostCheckDecision 0 = .ok decision ∧
      rest.map (·.outcome) = [stagePassed (some decision), stagePassed none] ∧
      Concluded request provenance (runCalls request built ran ++ rest) answer
        (some ⟨.completed, decision.verdict, decision.score⟩) := by
  have hplan : request.plan.stages = [.prepare, .build, .run, .check, .aggregate] :=
    request.plan.canonical
  obtain ⟨checked, later, rfl, -⟩ :=
    Settles.next_call _ hsettles hacceptable hsucceeded (by rw [hplan]; rfl)
  obtain ⟨hchecked, hruns⟩ := hruns
  obtain ⟨decision, hdecision, hcheck⟩ := executeStage_check boot request hlive hexit
  change (JudgeHost.executeStage boot ⟨request, .check⟩ host).1 = checked at hchecked
  change (firecracker boot).Runs later (JudgeHost.executeStage boot ⟨request, .check⟩ host).2 final
    at hruns
  rw [hcheck] at hchecked hruns
  subst hchecked
  -- the decision is the check stage's, and the aggregate stage passes
  rw [List.append_cons] at hsettles
  have hacceptable' : Acceptable (runCalls request built ran ++
      [⟨⟨request, .check⟩, stagePassed (some decision)⟩]) :=
    acceptable_passed hacceptable (iff_of_true rfl rfl)
  have hsucceeded' : ∀ call ∈ runCalls request built ran ++
      [⟨⟨request, .check⟩, stagePassed (some decision)⟩], call.outcome.status = .succeeded := by
    intro call hcall
    rcases List.mem_append.mp hcall with hcall | hcall
    · exact hsucceeded call hcall
    · exact List.mem_singleton.mp hcall ▸ rfl
  obtain ⟨aggregated, later, rfl, -⟩ :=
    Settles.next_call _ hsettles hacceptable' hsucceeded' (by rw [hplan]; rfl)
  obtain ⟨haggregated, hruns⟩ := hruns
  change (JudgeHost.executeStage boot ⟨request, .aggregate⟩ host).1 = aggregated at haggregated
  change (firecracker boot).Runs later
    (JudgeHost.executeStage boot ⟨request, .aggregate⟩ host).2 final at hruns
  rw [(executeStage_passes boot request hlive).2] at haggregated hruns
  subst haggregated
  have hlength := hsettles.length_le
  rw [hplan, runCalls, buildCalls] at hlength
  obtain rfl : later = [] := by
    refine List.eq_nil_of_length_eq_zero ?_
    simp only [List.length_append, List.length_cons, List.length_nil] at hlength
    omega
  refine ⟨hruns, decision, hdecision, rfl, ?_⟩
  have hall : Acceptable (runCalls request built ran ++
      [⟨⟨request, .check⟩, stagePassed (some decision)⟩] ++
        [⟨⟨request, .aggregate⟩, stagePassed none⟩]) :=
    acceptable_passed hacceptable' (iff_of_false nofun nofun)
  rw [List.append_cons]
  obtain ⟨-, -, hanswer⟩ := hsettles
  cases answer with
  | error error => exact absurd hall hanswer.1
  | ok result =>
    refine ⟨result, rfl, hanswer.2, ?_⟩
    obtain ⟨last, hlast, hends⟩ := hanswer.2.ends
    rw [List.getLast?_concat] at hlast
    obtain rfl := Option.some_inj.mp hlast
    obtain ⟨-, check, hcheck, hstage, decided, hdecided, hterminal⟩ := hends
    -- no other call is of the check stage
    have hsame : check = ⟨⟨request, .check⟩, stagePassed (some decision)⟩ := by
      simp only [runCalls, buildCalls, List.mem_append, List.mem_cons, List.not_mem_nil,
        or_false] at hcheck
      rcases hcheck with ((((rfl | rfl) | rfl) | rfl) | rfl)
      all_goals first | rfl | cases hstage
    subst hsame
    obtain rfl := Option.some_inj.mp hdecided
    exact hterminal

/-- The run stage of an attempt, and what follows it. -/
theorem course_of_run {exchanges : List Exchange} {rest : List StageCall}
    (hbuilds : boot.Builds build exchanges) (hexecution : build.execution .build = .ok built)
    (hexit : build.exitCode = 0)
    (hsettles : Settles request provenance (buildCalls request built ++ rest) answer)
    (hacceptable : Acceptable (buildCalls request built))
    (hruns : (firecracker boot).Runs rest host final) (hready : host.Ready exchanges) :
    final.sent = host.sent ++ [runMessage] ∧ ∃ terminal,
      Course boot [negotiateMessage, buildMessage, runMessage]
        (stagePassed none :: built :: rest.map (·.outcome)) terminal ∧
      Concluded request provenance (buildCalls request built ++ rest) answer terminal := by
  have hplan : request.plan.stages = [.prepare, .build, .run, .check, .aggregate] :=
    request.plan.canonical
  have hbuilt : built.status = .succeeded :=
    (StageReply.status_execution (.inl rfl) hexecution).1.mpr hexit
  have hsucceeded : ∀ call ∈ buildCalls request built, call.outcome.status = .succeeded := by
    intro call hcall
    rw [buildCalls, List.mem_cons, List.mem_singleton] at hcall
    rcases hcall with rfl | rfl
    · rfl
    · exact hbuilt
  -- the build succeeded, so the next call is that of the run stage
  obtain ⟨outcome, later, rfl, hon⟩ :=
    Settles.next_call _ hsettles hacceptable hsucceeded (by rw [hplan]; rfl)
  obtain ⟨houtcome, hruns⟩ := hruns
  have hstep := hready.runStep boot request
  change (JudgeHost.executeStage boot ⟨request, .run⟩ host).1 = outcome at houtcome
  change (firecracker boot).Runs later (JudgeHost.executeStage boot ⟨request, .run⟩ host).2 final
    at hruns
  rw [houtcome] at hstep
  generalize (JudgeHost.executeStage boot ⟨request, .run⟩ host).2 = next at hstep hruns
  cases hstep with
  -- no report that can be used: the stage fails, and the pipeline stops there
  | failed unusable sent =>
    obtain rfl := eq_nil_of_failed hon nofun
    obtain rfl : final = next := hruns
    exact ⟨sent, _, .runFailed hbuilds hexecution hexit unusable,
      concluded_of_last hsettles (acceptable_failed hacceptable _) rfl⟩
  | ran replies report execution sent exit live =>
    rename_i answered rest reply
    subst replies
    have hreplies : boot.Replies build reply := ⟨answered, rest, hbuilds, report⟩
    have hrun := StageReply.status_execution (.inr rfl) execution
    have hran := acceptable_runCalls hacceptable report hexecution execution
    by_cases hbounded : (build.usageWith reply).Bounded
    · by_cases hzero : reply.exitCode = 0
      · -- a success, which the check stage decides on
        rw [hzero] at exit
        have hall : ∀ call ∈ runCalls request built outcome, call.outcome.status = .succeeded := by
          intro call hcall
          rcases List.mem_append.mp hcall with hcall | hcall
          · exact hsucceeded call hcall
          · exact List.mem_singleton.mp hcall ▸ hrun.1.mpr hzero
        rw [List.append_cons] at hsettles
        obtain ⟨rfl, decision, hdecision, houtcomes, hconcluded⟩ :=
          course_of_check hsettles (hran.mpr hbounded) hall hruns live exit
        refine ⟨sent, _, ?_, (List.append_cons _ _ _).symm ▸ hconcluded⟩
        rw [List.map_cons, houtcomes]
        exact .accepted hreplies hexecution hexit execution hzero hbounded hdecision
      · -- a rejection ends the attempt
        obtain rfl := eq_nil_of_failed hon fun hstatus => hzero (hrun.1.mp hstatus)
        obtain rfl : final = next := hruns
        obtain ⟨-, hconverts⟩ := converts_of_executionForStageOutput (.inr rfl) execution
        obtain ⟨usage, diagnostics, evidence, rfl⟩ := hconverts.rejected hzero
        exact ⟨sent, _, .runRejected hreplies hexecution hexit execution hzero hbounded,
          concluded_of_last hsettles (hran.mpr hbounded) rfl⟩
    · -- the pipeline stops with an error when it adds the usages up
      obtain rfl : later = [] := by_contra fun hlater => hbounded (hran.mp (hon hlater).2)
      obtain rfl : final = next := hruns
      refine ⟨sent, none, .excessive hreplies hexecution hexit execution hbounded, ?_⟩
      obtain ⟨-, -, hanswer⟩ := hsettles
      cases answer with
      | error error => exact ⟨error, rfl⟩
      | ok result => exact absurd (hran.mp hanswer.1) hbounded

/-- **An attempt takes one of its courses**, call by call. -/
theorem course_of_calls (h : host.Fresh) (hsettles : Settles request provenance calls answer)
    (hruns : (firecracker boot).Runs calls host final) :
    ∃ sent terminal, final.sent = host.sent ++ sent ∧
      Course boot sent (calls.map (·.outcome)) terminal ∧
      Concluded request provenance calls answer terminal := by
  have hplan : request.plan.stages = [.prepare, .build, .run, .check, .aggregate] :=
    request.plan.canonical
  have hnil : Acceptable [] := (EvaluationRun.records_new request provenance).acceptable
  -- the prepare stage passes
  obtain ⟨prepared, later, rfl, -⟩ :=
    Settles.next_call [] hsettles hnil (by simp) (by rw [hplan]; rfl)
  obtain ⟨hprepared, hruns⟩ := hruns
  change (JudgeHost.executeStage boot ⟨request, .prepare⟩ host).1 = prepared at hprepared
  change (firecracker boot).Runs later
    (JudgeHost.executeStage boot ⟨request, .prepare⟩ host).2 final at hruns
  rw [(executeStage_passes boot request h.terminated).1] at hprepared hruns
  subst hprepared
  have hpassed : Acceptable [⟨⟨request, .prepare⟩, stagePassed none⟩] :=
    acceptable_passed hnil (iff_of_false nofun nofun)
  obtain ⟨outcome, later, rfl, hon⟩ :=
    Settles.next_call [⟨⟨request, .prepare⟩, stagePassed none⟩] hsettles hpassed
      (fun call hcall => List.mem_singleton.mp hcall ▸ rfl) (by rw [hplan]; rfl)
  have hfailed (hsettles : Settles request provenance
      ([⟨⟨request, .prepare⟩, stagePassed none⟩] ++ [⟨⟨request, .build⟩, stageFailed⟩]) answer) :
      Concluded request provenance
        ([⟨⟨request, .prepare⟩, stagePassed none⟩] ++ [⟨⟨request, .build⟩, stageFailed⟩]) answer
        (some platformFailure) :=
    concluded_of_last hsettles (acceptable_failed hpassed _) rfl
  -- the build stage takes one of its steps
  obtain ⟨houtcome, hruns⟩ := hruns
  have hstep := h.buildStep boot request
  change (JudgeHost.executeStage boot ⟨request, .build⟩ host).1 = outcome at houtcome
  change (firecracker boot).Runs later (JudgeHost.executeStage boot ⟨request, .build⟩ host).2 final
    at hruns
  rw [houtcome] at hstep
  generalize (JudgeHost.executeStage boot ⟨request, .build⟩ host).2 = next at hstep hruns
  cases hstep with
  | unopened closed sent =>
    obtain rfl := eq_nil_of_failed hon nofun
    obtain rfl : final = next := hruns
    exact ⟨[], _, by rw [sent, List.append_nil], .unopened closed, hfailed hsettles⟩
  | disagreed opened disagrees sent =>
    obtain rfl := eq_nil_of_failed hon nofun
    obtain rfl : final = next := hruns
    exact ⟨_, _, sent, .disagreed opened disagrees, hfailed hsettles⟩
  | failed opened agrees unusable sent =>
    obtain rfl := eq_nil_of_failed hon nofun
    obtain rfl : final = next := hruns
    exact ⟨_, _, sent, .buildFailed opened agrees unusable, hfailed hsettles⟩
  | built opened agrees report execution sent ready =>
    rename_i agreed answered rest reply
    have hbuilds : boot.Builds reply rest := ⟨agreed, answered, opened, agrees, report⟩
    have hbuild := StageReply.status_execution (.inl rfl) execution
    have hacceptable : Acceptable (buildCalls request outcome) := by
      obtain ⟨hfits, hlimits⟩ := StageReply.execution_fits report (.inl rfl) execution request
      refine (acceptable_concat hpassed).mpr ⟨hfits, ?_, hlimits⟩
      exact (ResourceUsageParts.zero_plus _).symm ▸ ResourceUsageParts.validate_eq_ok.mp
        outcome.usage.valid
    by_cases hexit : reply.exitCode = 0
    · obtain ⟨hsent, terminal, hcourse, hconcluded⟩ :=
        course_of_run hbuilds execution hexit hsettles hacceptable hruns ready
      refine ⟨_, terminal, ?_, hcourse, hconcluded⟩
      rw [hsent, sent, List.append_assoc]
      rfl
    · obtain rfl := eq_nil_of_failed hon fun hstatus => hexit (hbuild.1.mp hstatus)
      obtain rfl : final = next := hruns
      obtain ⟨-, hconverts⟩ := converts_of_executionForStageOutput (.inl rfl) execution
      obtain ⟨usage, diagnostics, evidence, rfl⟩ := hconverts.rejected hexit
      have hconcluded : Concluded request provenance
          ([⟨⟨request, .prepare⟩, stagePassed none⟩] ++ [⟨⟨request, .build⟩,
            .rejected .compileError usage diagnostics evidence⟩]) answer
          (some ⟨.completed, .compileError, noPoints⟩) :=
        concluded_of_last hsettles hacceptable rfl
      exact ⟨_, _, sent, .buildRejected hbuilds execution hexit, hconcluded⟩

end Attempt

/-! ### Which course it is -/

/-- The executor has the capability this request needs. -/
def Supported (request : EvaluationRequest) : Prop :=
  ∀ capability ∈ request.requiredCapabilities, capability.value = "algorithm.batch"

theorem Boot.Builds.unique {boot : Boot} {build build' : StageReply} {rest rest' : List Exchange}
    (h : boot.Builds build rest) (h' : boot.Builds build' rest') :
    build = build' ∧ rest = rest' := by
  obtain ⟨agreed, built, rfl, -, hreport⟩ := h
  obtain ⟨_, _, hopened, -, hreport'⟩ := h'
  cases hopened
  exact ⟨Option.some_inj.mp (hreport.symm.trans hreport'), rfl⟩

theorem Boot.Replies.unique {boot : Boot} {build build' run run' : StageReply}
    (h : boot.Replies build run) (h' : boot.Replies build' run') : build = build' ∧ run = run' := by
  obtain ⟨ran, rest, hbuilds, hreport⟩ := h
  obtain ⟨ran', rest', hbuilds', hreport'⟩ := h'
  obtain ⟨hbuild, hrest⟩ := hbuilds.unique hbuilds'
  cases hrest
  exact ⟨hbuild, Option.some_inj.mp (hreport.symm.trans hreport')⟩

section Which

variable [Uppercase] {boot : Boot} {host : JudgeHost} {request : EvaluationRequest}

/-- **Every attempt**, of an executor that may have made others before it, takes a course. -/
theorem course_of_execute (boot : Boot) (h : host.Reached) (hsupported : Supported request) :
    ∃ provenance calls sent terminal,
      (host.execute boot request).2.sent = host.sent ++ sent ∧
      Course boot sent (calls.map (·.outcome)) terminal ∧
      Concluded request provenance calls (host.execute boot request).1 terminal := by
  have hprovenance : ∃ provenance, ExecutionProvenance.new .firecracker false
      request.runtime.digest (some host.beginAttempt.nodeId) = .ok provenance := by
    unfold ExecutionProvenance.new
    simp
  obtain ⟨provenance, hprovenance⟩ := hprovenance
  have hstart : (firecracker boot).start request host.beginAttempt =
      .ok (.new request provenance) :=
    start_eq_ok.mpr ⟨fun capability hrequired =>
      decide_eq_true (hsupported capability hrequired), provenance, hprovenance, rfl⟩
  obtain ⟨sent, terminal, hsent, hcourse, hconcluded⟩ :=
    course_of_calls h.fresh (settles_of_start hstart)
      (runs_calls (firecracker boot) request host.beginAttempt)
  rw [JudgeHost.sent_beginAttempt] at hsent
  exact ⟨_, _, sent, terminal, hsent, hcourse, hconcluded⟩

/-- A report the evaluator can convert. -/
def StageReply.Convertible (reply : StageReply) : Prop :=
  OpenOJ.Convertible reply.outputDigest reply.outputBytes reply.usage reply.diagnostics

/-- The build exits with zero, and both stages have a report that can be converted. -/
structure Boot.Completes (boot : Boot) (build run : StageReply) : Prop where
  replies : boot.Replies build run
  buildExit : build.exitCode = 0
  buildConvertible : build.Convertible
  runConvertible : run.Convertible

theorem Exchange.Unusable.not_convertible {exchange : Exchange} {stage : StageKind}
    (h : exchange.Unusable stage) (hstage : stage = .build ∨ stage = .run) {reply : StageReply}
    (hreport : exchange.report = some reply) : ¬reply.Convertible := by
  intro hconvertible
  obtain ⟨outcome, houtcome⟩ := (exists_executionForStageOutput hstage).mpr hconvertible
  exact h reply hreport outcome houtcome

/-- An attempt whose build has a report gets as far as the build. -/
theorem Course.of_builds {sent : List Message} {outcomes : List StageExecution}
    {terminal : Option Terminal} (h : Course boot sent outcomes terminal) {build : StageReply}
    {rest : List Exchange} (hbuilds : boot.Builds build rest) (hbuild : build.Convertible) :
    (build.exitCode ≠ 0 ∧ sent = [negotiateMessage, buildMessage] ∧
        terminal = some ⟨.completed, .compileError, noPoints⟩) ∨
      sent = [negotiateMessage, buildMessage, runMessage] := by
  cases h with
  | unopened closed =>
    obtain ⟨_, _, hopened, -⟩ := hbuilds
    exact absurd hopened (closed _)
  | disagreed opened disagrees =>
    obtain ⟨agreed, _, hopened, hagrees, -⟩ := hbuilds
    cases opened.symm.trans hopened
    exact absurd hagrees (disagrees agreed rfl)
  | buildFailed opened agrees unusable =>
    obtain ⟨_, built, hopened, -, hreport⟩ := hbuilds
    cases opened.symm.trans hopened
    exact absurd hbuild ((unusable built rfl).not_convertible (.inl rfl) hreport)
  | buildRejected builds execution exit =>
    obtain ⟨rfl, -⟩ := builds.unique hbuilds
    exact .inl ⟨exit, rfl, rfl⟩
  | runFailed | runRejected | excessive | accepted => exact .inr rfl

/-- An attempt whose stages both have a report gets as far as the run. -/
theorem Course.of_completes {sent : List Message} {outcomes : List StageExecution}
    {terminal : Option Terminal} (h : Course boot sent outcomes terminal) {build run : StageReply}
    (hcompletes : boot.Completes build run) :
    (terminal = none ↔ ¬(build.usageWith run).Bounded) ∧
      sent = [negotiateMessage, buildMessage, runMessage] ∧
      (∀ t ∈ terminal, t.status = .completed) ∧
      (run.exitCode = 0 → (build.usageWith run).Bounded → ∃ built ran decision,
        build.execution .build = .ok built ∧ run.execution .run = .ok ran ∧
        hostCheckDecision 0 = .ok decision ∧
        outcomes = [stagePassed none, built, ran, stagePassed (some decision), stagePassed none] ∧
        terminal = some ⟨.completed, decision.verdict, decision.score⟩) := by
  obtain ⟨hreplies, hexit, hbuild, hrun⟩ := hcompletes
  obtain ⟨ran, later, hbuilds, hran⟩ := id hreplies
  have hsent := (h.of_builds hbuilds hbuild).resolve_left fun hrejected => hrejected.1 hexit
  cases h with
  | unopened | disagreed | buildFailed | buildRejected => cases hsent
  | runFailed builds execution exit unusable =>
    obtain ⟨-, rfl⟩ := builds.unique hbuilds
    exact absurd hrun ((unusable ran rfl).not_convertible (.inr rfl) hran)
  | runRejected replies buildExecution buildExit runExecution runExit bounded =>
    obtain ⟨rfl, rfl⟩ := replies.unique hreplies
    exact ⟨iff_of_false nofun (not_not.mpr bounded), rfl, fun _ ht => Option.some_inj.mp ht ▸ rfl,
      fun hzero => absurd hzero runExit⟩
  | excessive replies buildExecution buildExit runExecution unbounded =>
    obtain ⟨rfl, rfl⟩ := replies.unique hreplies
    exact ⟨iff_of_true rfl unbounded, rfl, nofun, fun _ hbounded => absurd hbounded unbounded⟩
  | accepted replies buildExecution buildExit runExecution runExit bounded decides =>
    obtain ⟨rfl, rfl⟩ := replies.unique hreplies
    exact ⟨iff_of_false nofun (not_not.mpr bounded), rfl, fun _ ht => Option.some_inj.mp ht ▸ rfl,
      fun _ _ => ⟨_, _, _, buildExecution, runExecution, decides, rfl, rfl⟩⟩

/-! ### No guest's data is an error -/

/-- The guest's data is what it should be: it agrees, and its reports can be converted, as far as
they are asked for. -/
def Boot.WellBehaved (boot : Boot) : Prop :=
  ∃ build rest, boot.Builds build rest ∧ build.Convertible ∧
    (build.exitCode ≠ 0 ∨ ∃ run, boot.Replies build run ∧ run.Convertible)

/-- The data of a guest whose attempt does not fail is what it should be. -/
theorem Course.wellBehaved {sent : List Message} {outcomes : List StageExecution}
    {terminal : Option Terminal} (h : Course boot sent outcomes terminal)
    (hterminal : terminal ≠ some platformFailure) : boot.WellBehaved := by
  have hconvertible {reply : StageReply} {stage : StageKind} {outcome : StageExecution}
      (hstage : stage = .build ∨ stage = .run) (hexecution : reply.execution stage = .ok outcome) :
      reply.Convertible := (converts_of_executionForStageOutput hstage hexecution).1
  have hreplies {build run : StageReply} {built ran : StageExecution}
      (hreplies : boot.Replies build run) (hbuild : build.execution .build = .ok built)
      (hrun : run.execution .run = .ok ran) : boot.WellBehaved := by
    obtain ⟨answer, rest, hbuilds, hreport⟩ := id hreplies
    exact ⟨build, _, hbuilds, hconvertible (.inl rfl) hbuild,
      .inr ⟨run, hreplies, hconvertible (.inr rfl) hrun⟩⟩
  cases h with
  | unopened | disagreed | buildFailed | runFailed => exact absurd rfl hterminal
  | buildRejected builds execution exit =>
    exact ⟨_, _, builds, hconvertible (.inl rfl) execution, .inl exit⟩
  | runRejected replies buildExecution buildExit runExecution runExit bounded =>
    exact hreplies replies buildExecution runExecution
  | excessive replies buildExecution buildExit runExecution unbounded =>
    exact hreplies replies buildExecution runExecution
  | accepted replies buildExecution buildExit runExecution runExit bounded decides =>
    exact hreplies replies buildExecution runExecution

/-- Usages that are not within the limits together are an error. -/
theorem execute_excessive (h : host.Reached) (hsupported : Supported request)
    {build run : StageReply} (hcompletes : boot.Completes build run)
    (hunbounded : ¬(build.usageWith run).Bounded) :
    ∃ error, (host.execute boot request).1 = .error error := by
  obtain ⟨provenance, calls, sent, terminal, -, hcourse, hconcluded⟩ :=
    course_of_execute boot h hsupported
  obtain rfl := (hcourse.of_completes hcompletes).1.mpr hunbounded
  exact hconcluded

/-- **A guest can crash its judge** exactly by reporting, for a build and a run that are each within
the limits, usages that are not within them together. -/
theorem executes_iff (h : host.Reached) (hsupported : Supported request) :
    (∃ result, (host.execute boot request).1 = .ok result ∧
        (¬boot.WellBehaved → result.status = .failed ∧ result.verdict = .systemError)) ↔
      ∀ build run, boot.Completes build run → (build.usageWith run).Bounded := by
  obtain ⟨provenance, calls, sent, terminal, -, hcourse, hconcluded⟩ :=
    course_of_execute boot h hsupported
  generalize calls.map (·.outcome) = outcomes at hcourse
  constructor
  · rintro ⟨result, hok, -⟩ build run hcompletes
    by_contra hunbounded
    obtain ⟨error, herror⟩ := execute_excessive h hsupported hcompletes hunbounded
    cases hok.symm.trans herror
  · intro hbounded
    rcases terminal with _ | terminal
    · -- only the excessive course ends with an error
      cases hcourse with
      | excessive replies buildExecution buildExit runExecution unbounded =>
        refine absurd (hbounded _ _ ⟨replies, buildExit, ?_, ?_⟩) unbounded
        · exact (converts_of_executionForStageOutput (.inl rfl) buildExecution).1
        · exact (converts_of_executionForStageOutput (.inr rfl) runExecution).1
    · obtain ⟨result, hok, -, hterminal⟩ := hconcluded
      refine ⟨result, hok, fun hbehaved => ?_⟩
      by_cases hfailure : terminal = platformFailure
      · rw [hfailure] at hterminal
        obtain ⟨hstatus, hverdict, -⟩ := Terminal.mk.injEq .. ▸ hterminal
        exact ⟨hstatus, hverdict⟩
      · exact absurd (hcourse.wellBehaved fun heq => hfailure (Option.some_inj.mp heq)) hbehaved

end Which

/-! ### Fixtures -/

/-- A node. -/
def fixtureNode : NodeId := ⟨"judge_fc_01", by decide +kernel⟩

/-- A digest as a guest reports it. -/
def quietDigest : String := "abababababababababababababababababababababababababababababababab"

/-- The report of a stage that exited with zero and printed two bytes. -/
def quietReply (stage : Stage) (usage : GuestUsage) : StageReply :=
  ⟨stage, 0, quietDigest, 2, usage, []⟩

theorem quietReply_readable (stage : Stage) (usage : GuestUsage) :
    (Message.stageOutput stage 0 quietDigest 2 usage []).ReadBounds := by
  refine ⟨?_, Nat.zero_le _, nofun⟩
  decide +kernel

/-- A guest that agrees and sends these two reports. -/
def quietGuest (build run : Stage × GuestUsage) : Boot :=
  .opened [.replied (.negotiated true) trivial,
    .replied (.stageOutput build.1 0 quietDigest 2 build.2 []) (quietReply_readable _ _),
    .replied (.stageOutput run.1 0 quietDigest 2 run.2 []) (quietReply_readable _ _)]

section Fixtures

attribute [local instance] asciiUppercase

theorem quietGuest_completes (build run : Stage × GuestUsage) (hbuild : build.2.parts.Bounded)
    (hrun : run.2.parts.Bounded) :
    (quietGuest build run).Completes (quietReply build.1 build.2) (quietReply run.1 run.2) := by
  have hdigest : IsHexDigest quietDigest := ⟨by decide +kernel, by decide +kernel⟩
  have hsize : (2 : UInt64).toNat ≤ maxArtifactBytes := by decide
  exact ⟨⟨_, _, ⟨_, _, rfl, trivial, rfl⟩, rfl⟩, rfl, ⟨hbuild, nofun, hdigest, hsize⟩,
    ⟨hrun, nofun, hdigest, hsize⟩⟩

theorem supported_fixtureRequest : Supported fixtureRequest := by
  intro capability hrequired
  obtain rfl := List.mem_singleton.mp hrequired
  rfl

/-- A guest that builds and runs what it was sent, within the fixture's limits. -/
def workingGuest : Boot := quietGuest (.build, ⟨400, 600, 65536, 2⟩) (.run, ⟨300, 500, 4096, 2⟩)

theorem workingGuest_completes :
    workingGuest.Completes (quietReply .build ⟨400, 600, 65536, 2⟩)
      (quietReply .run ⟨300, 500, 4096, 2⟩) :=
  quietGuest_completes (.build, _) (.run, _) ⟨by decide, by decide, by decide, by decide⟩
    ⟨by decide, by decide, by decide, by decide⟩

theorem workingGuest_bounded {build run : StageReply} (h : workingGuest.Completes build run) :
    (build.usageWith run).Bounded := by
  obtain ⟨rfl, rfl⟩ := h.replies.unique workingGuest_completes.replies
  exact ⟨by decide, by decide, by decide, by decide⟩

/-- An attempt with this guest has a result. -/
theorem executes_iff_workingGuest :
    ∃ result, ((JudgeHost.tryNew fixtureNode).execute workingGuest fixtureRequest).1 = .ok result ∧
      (¬workingGuest.WellBehaved → result.status = .failed ∧ result.verdict = .systemError) :=
  (executes_iff (.tryNew fixtureNode) supported_fixtureRequest).mpr fun _ _ hcompletes =>
    workingGuest_bounded hcompletes

/-- A day of processor time for the build and a millisecond for the run. -/
theorem busyGuest_error :
    ¬∃ result, ((JudgeHost.tryNew fixtureNode).execute
      (quietGuest (.build, ⟨86400000, 0, 0, 0⟩) (.run, ⟨1, 0, 0, 0⟩)) fixtureRequest).1 =
        .ok result := by
  have hbuild : (GuestUsage.mk 86400000 0 0 0).parts.Bounded :=
    ⟨by decide, by decide, by decide, by decide⟩
  have hrun : (GuestUsage.mk 1 0 0 0).parts.Bounded := ⟨by decide, by decide, by decide, by decide⟩
  obtain ⟨error, herror⟩ := execute_excessive (.tryNew fixtureNode) supported_fixtureRequest
    (quietGuest_completes (.build, _) (.run, _) hbuild hrun)
    (fun hbounded => absurd hbounded.cpuTimeMs (by decide))
  rintro ⟨result, hok⟩
  cases hok.symm.trans herror

end Fixtures
end OpenOJ
