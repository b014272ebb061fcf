import OpenOJ.Judge.Attempt

/-!
# What an accepted attempt says

Two things one expects of an attempt, and exactly when they hold.

* Its limits decide the verdict (`KeepsLimits`): what is accepted has used no more than the
  request's policy allows, and was given no more time than that. Nothing but the guest's own numbers
  ensures the first, and the second is up to two fixed budgets. `keepsLimits_iff` says so, and
  `slowGuest_accepted` is a guest that is accepted with a report of more time than the policy has;
* it goes from message to message as the protocol has it (`Conforms`): each reply is of the kind
  that the message asked for, and the first one that is not ends the attempt. A guest breaks this by
  reporting one stage as another. `conforms_iff` says that nothing else does (`Boot.Honest`), and
  `repeatedBuild_accepted` is a guest whose run is the report of a build.

Both are conditions on the replies of the guest, and both are read off the courses of an attempt: a
course determines what was sent (`course_of_sentBy`), what is accepted (`Course.accepts`) and
whether the usages of the stages are within the limits (`Concludes.within_iff`).
-/

namespace OpenOJ

open Outcome Guest

/-! ### What is expected -/

/-- The wall-clock budget a message hands over. -/
def Guest.Message.wallBudget : Message → Option UInt64
  | .build _ wallTimeMs | .run _ wallTimeMs => some wallTimeMs
  | _ => none

/-- A usage within the limits of a policy. -/
structure ResourceUsageParts.Within (usage : ResourceUsageParts) (policy : ResourcePolicyParts) :
    Prop where
  cpuTimeMs : usage.cpuTimeMs ≤ policy.cpuTimeMs
  wallTimeMs : usage.wallTimeMs ≤ policy.wallTimeMs
  memoryPeakBytes : usage.memoryPeakBytes ≤ policy.memoryBytes
  outputBytes : usage.outputBytes ≤ policy.outputBytes

/-- Who is accepted has kept the limits of the policy, and was given no more time. -/
def KeepsLimits (policy : ResourcePolicyParts) (sent : List Message)
    (answer : Except ApplicationError EvaluationResult) : Prop :=
  ∀ result, answer = .ok result → result.verdict = .accepted →
    (∀ report ∈ result.stages, report.usage.toResourceUsageParts.Within policy) ∧
      ∀ message ∈ sent, ∀ budget, message.wallBudget = some budget →
        budget.toNat ≤ policy.wallTimeMs

/-- The reply to a message; a guest without one is silent. -/
def Boot.reply (boot : Boot) (k : Nat) : Exchange := boot.exchanges.getD k .failed

/-- The reply is the report of this stage, with an exit code of zero. -/
def Exchange.Succeeds (exchange : Exchange) (stage : Stage) : Prop :=
  ∃ reply, exchange.report = some reply ∧ reply.stage = stage ∧ reply.exitCode = 0

/-- The reply is the report of this stage, with another exit code. -/
def Exchange.Rejects (exchange : Exchange) (stage : Stage) : Prop :=
  ∃ reply, exchange.report = some reply ∧ reply.stage = stage ∧ reply.exitCode ≠ 0

/-- What the host waits for after its first, second and third message. -/
def Exchange.Expected (exchange : Exchange) : Nat → Prop
  | 0 => exchange.Agrees
  | 1 => exchange.Succeeds .build
  | _ => exchange.Succeeds .run

/-- The rejections a stage's own report can lead to. -/
def Exchange.RejectedAs (exchange : Exchange) (result : EvaluationResult) : Nat → Prop
  | 0 => False
  | 1 => exchange.Rejects .build ∧ result.verdict = .compileError
  | _ => exchange.Rejects .run ∧
      (result.verdict = .runtimeError ∨ result.verdict = .timeLimitExceeded)

/-- An attempt goes from message to message as the protocol has it. -/
structure Conforms (boot : Boot) (sent : List Message)
    (answer : Except ApplicationError EvaluationResult) : Prop where
  order : sent <+: [negotiateMessage, buildMessage, runMessage]
  build : 1 < sent.length → (boot.reply 0).Expected 0
  run : 2 < sent.length → (boot.reply 1).Expected 1
  accepts : ∀ result, answer = .ok result → result.verdict = .accepted → (boot.reply 2).Expected 2
  ends : ∀ k < sent.length, ¬(boot.reply k).Expected k → sent.length = k + 1 ∧
    ∃ result, answer = .ok result ∧
      (result.status = .failed ∧ result.verdict = .systemError ∨
        result.status = .completed ∧ (boot.reply k).RejectedAs result k)

/-! ### Conclusions -/

theorem ResourceUsageParts.within_zero (policy : ResourcePolicyParts) :
    ResourceUsageParts.Within ⟨0, 0, 0, 0⟩ policy :=
  ⟨Nat.zero_le _, Nat.zero_le _, Nat.zero_le _, Nat.zero_le _⟩

section Conclusions

variable {request : EvaluationRequest} {provenance : ExecutionProvenance} {calls : List StageCall}

/-- The reports of a result are within limits exactly when the outcomes of the calls are: beside
them there are only reports without usage. -/
theorem Concludes.within_iff {result : EvaluationResult}
    (h : Concludes request provenance calls result) (policy : ResourcePolicyParts) :
    (∀ report ∈ result.stages, report.usage.toResourceUsageParts.Within policy) ↔
      ∀ outcome ∈ calls.map (·.outcome), outcome.usage.toResourceUsageParts.Within policy := by
  obtain ⟨reports, skipped, hreports, hskipped, hstages⟩ := h.stages
  have hskip : ∀ report ∈ skipped, report.usage.toResourceUsageParts.Within policy := by
    generalize request.plan.stages.drop calls.length = stages at hskipped
    clear hstages
    induction hskipped with
    | nil => simp
    | cons hskips _ ih =>
      exact List.forall_mem_cons.mpr ⟨hskips.usage ▸ ResourceUsageParts.within_zero policy, ih⟩
  rw [hstages, List.forall_mem_append, and_iff_left hskip, List.forall_mem_map]
  clear hstages hskip hskipped h
  induction hreports with
  | nil => exact iff_of_true (by simp) (by simp)
  | cons hreport _ ih =>
    rw [List.forall_mem_cons, List.forall_mem_cons, hreport.usage]
    exact and_congr_right fun _ => ih

theorem Concluded.result {answer : Except ApplicationError EvaluationResult} {terminal : Terminal}
    (h : Concluded request provenance calls answer (some terminal)) :
    ∃ result, answer = .ok result ∧ result.status = terminal.status ∧
      result.verdict = terminal.verdict := by
  obtain ⟨result, hok, -, rfl⟩ := h
  exact ⟨result, hok, rfl, rfl⟩

/-- Whose terminal is no acceptance was not accepted. -/
private theorem not_accepted {answer : Except ApplicationError EvaluationResult}
    {terminal : Option Terminal} (hconcluded : Concluded request provenance calls answer terminal)
    (hverdict : ∀ t ∈ terminal, t.verdict ≠ .accepted) {result : EvaluationResult}
    (hok : answer = .ok result) : result.verdict ≠ .accepted := by
  rcases terminal with _ | terminal
  · obtain ⟨error, herror⟩ := hconcluded
    cases hok.symm.trans herror
  · obtain ⟨result', hok', -, rfl⟩ := hconcluded
    obtain rfl := Except.ok.inj (hok.symm.trans hok')
    exact hverdict _ rfl

private theorem rejectionVerdict_run (exitCode : Int32) :
    rejectionVerdict .run exitCode = .runtimeError ∨
      rejectionVerdict .run exitCode = .timeLimitExceeded := by
  unfold rejectionVerdict
  split_ifs <;> simp

/-- The decision after an exit code of zero. -/
theorem verdict_of_zero {decision : Decision} (h : hostCheckDecision 0 = .ok decision) :
    decision.verdict = .accepted := by
  cases h
  rfl

end Conclusions

/-! ### Replies -/

section Replies

variable {boot : Boot}

theorem Boot.Builds.reply {build : StageReply} {rest : List Exchange}
    (h : boot.Builds build rest) :
    (boot.reply 0).Expected 0 ∧ (boot.reply 1).report = some build := by
  obtain ⟨agreed, built, rfl, hagrees, hreport⟩ := h
  exact ⟨hagrees, hreport⟩

theorem Boot.Replies.reply {build run : StageReply} (h : boot.Replies build run) :
    (boot.reply 2).report = some run := by
  obtain ⟨ran, rest, ⟨agreed, built, rfl, -⟩, hreport⟩ := h
  exact hreport

/-- A report is what is expected exactly when it is of the stage and its exit code is zero. -/
theorem Exchange.succeeds_iff {exchange : Exchange} {reply : StageReply} {stage : Stage}
    (h : exchange.report = some reply) :
    exchange.Succeeds stage ↔ reply.stage = stage ∧ reply.exitCode = 0 := by
  rw [Succeeds, h]
  simp

theorem Exchange.rejects_iff {exchange : Exchange} {reply : StageReply} {stage : Stage}
    (h : exchange.report = some reply) :
    exchange.Rejects stage ↔ reply.stage = stage ∧ reply.exitCode ≠ 0 := by
  rw [Rejects, h]
  simp

/-- An attempt that sends nothing conforms unless it accepts. -/
theorem conforms_nil {answer : Except ApplicationError EvaluationResult}
    (haccepts : ∀ result, answer = .ok result → result.verdict ≠ .accepted) :
    Conforms boot [] answer :=
  ⟨List.nil_prefix, fun h => absurd h (Nat.not_lt_zero _), fun h => absurd h (Nat.not_lt_zero _),
    fun result hok haccepted => absurd haccepted (haccepts result hok),
    fun _ h => absurd h (Nat.not_lt_zero _)⟩

/-- An attempt conforms when only the last of its replies is not what was expected, and it ends with
that. -/
theorem conforms_of_last {answer : Except ApplicationError EvaluationResult} {sent : List Message}
    {n : Nat} (hn : n ≤ 2)
    (hsent : sent = [negotiateMessage, buildMessage, runMessage].take (n + 1))
    (hexpected : ∀ k < n, (boot.reply k).Expected k)
    (haccepts : ∀ result, answer = .ok result → result.verdict = .accepted →
      (boot.reply 2).Expected 2)
    (hlast : ¬(boot.reply n).Expected n → ∃ result, answer = .ok result ∧
      (result.status = .failed ∧ result.verdict = .systemError ∨
        result.status = .completed ∧ (boot.reply n).RejectedAs result n)) :
    Conforms boot sent answer := by
  have hlength : sent.length = n + 1 := by
    rw [hsent, List.length_take]
    simp only [List.length_cons, List.length_nil]
    omega
  refine ⟨hsent ▸ List.take_prefix _ _, fun h => hexpected 0 (by omega),
    fun h => hexpected 1 (by omega), haccepts, fun k hk hnot => ?_⟩
  obtain rfl : k = n := by
    by_contra hne
    exact hnot (hexpected k (by omega))
  exact ⟨hlength, hlast hnot⟩

end Replies

section Attempts

variable [Uppercase]

/-- The messages of one attempt. -/
def JudgeHost.sentBy (boot : Boot) (request : EvaluationRequest) (host : JudgeHost) :
    List Message :=
  (host.execute boot request).2.sent.drop host.sent.length

variable {boot : Boot} {host : JudgeHost} {request : EvaluationRequest}

/-- A request the executor has not the capabilities for is refused before anything is sent. -/
theorem execute_unsupported (h : ¬Supported request) (boot : Boot) (host : JudgeHost) :
    host.sentBy boot request = [] ∧ ∃ error, (host.execute boot request).1 = .error error := by
  have hany : (request.requiredCapabilities.any fun capability =>
      !(firecracker boot).supports host.beginAttempt capability) = true := by
    by_contra hnone
    refine h fun capability hrequired => ?_
    rw [Bool.not_eq_true, List.any_eq_false] at hnone
    have hsupports := hnone capability hrequired
    rw [Bool.not_eq_true, Bool.not_eq_false'] at hsupports
    exact of_decide_eq_true hsupports
  have hevaluate : evaluate (firecracker boot) request host.beginAttempt =
      (.error .unsupportedCapability, host.beginAttempt) := if_pos hany
  constructor
  · rw [JudgeHost.sentBy, JudgeHost.execute, hevaluate]
    change host.beginAttempt.sent.drop host.sent.length = []
    rw [JudgeHost.sent_beginAttempt, List.drop_length]
  · rw [JudgeHost.execute, hevaluate]
    exact ⟨_, rfl⟩

/-- The course of an attempt, with what it sends by itself. -/
theorem course_of_sentBy (boot : Boot) (h : host.Reached) (hsupported : Supported request) :
    ∃ provenance calls terminal,
      Course boot (host.sentBy boot request) (calls.map (·.outcome)) terminal ∧
      Concluded request provenance calls (host.execute boot request).1 terminal := by
  obtain ⟨provenance, calls, sent, terminal, hsent, hcourse, hconcluded⟩ :=
    course_of_execute boot h hsupported
  have hsame : host.sentBy boot request = sent := by
    rw [JudgeHost.sentBy, hsent, List.drop_left]
  exact ⟨provenance, calls, terminal, hsame ▸ hcourse, hconcluded⟩

/-! ### Limits -/

/-- Only one course ends with an acceptance. -/
theorem Course.accepts {sent : List Message} {outcomes : List StageExecution}
    {terminal : Option Terminal} (h : Course boot sent outcomes terminal)
    {t : Terminal} (ht : terminal = some t) (haccepted : t.verdict = .accepted) :
    ∃ build run built ran decision, boot.Completes build run ∧ run.exitCode = 0 ∧
      (build.usageWith run).Bounded ∧ build.execution .build = .ok built ∧
      run.execution .run = .ok ran ∧
      outcomes = [stagePassed none, built, ran, stagePassed (some decision), stagePassed none] := by
  cases h with
  | unopened | disagreed | buildFailed | buildRejected | runFailed =>
    obtain rfl := Option.some_inj.mp ht
    cases haccepted
  | runRejected replies buildExecution buildExit runExecution runExit bounded =>
    obtain rfl := Option.some_inj.mp ht
    rcases rejectionVerdict_run _ with hverdict | hverdict <;>
    · cases hverdict.symm.trans haccepted
  | excessive => cases ht
  | accepted replies buildExecution buildExit runExecution runExit bounded decides =>
    exact ⟨_, _, _, _, _, ⟨replies, buildExit,
      (converts_of_executionForStageOutput (.inl rfl) buildExecution).1,
      (converts_of_executionForStageOutput (.inr rfl) runExecution).1⟩, runExit, bounded,
      buildExecution, runExecution, rfl⟩

/-- What an accepted attempt that keeps its limits says about its guest. -/
theorem KeepsLimits.limits
    (hkeeps : KeepsLimits request.policy.toResourcePolicyParts (host.sentBy boot request)
      (host.execute boot request).1) (h : host.Reached) (hsupported : Supported request)
    {build run : StageReply} (hcompletes : boot.Completes build run) (hexit : run.exitCode = 0)
    (hbounded : (build.usageWith run).Bounded) :
    buildWallMs.toNat ≤ request.policy.wallTimeMs ∧
      build.usage.parts.Within request.policy.toResourcePolicyParts ∧
        run.usage.parts.Within request.policy.toResourcePolicyParts := by
  obtain ⟨provenance, calls, terminal, hcourse, hconcluded⟩ :=
    course_of_sentBy boot h hsupported
  obtain ⟨-, hsent, -, haccepted⟩ := hcourse.of_completes hcompletes
  obtain ⟨built, ran, decision, hbuilt, hran, hdecision, houtcomes, rfl⟩ :=
    haccepted hexit hbounded
  obtain ⟨result, hok, hconcludes, hterminal⟩ := hconcluded
  have hverdict : result.verdict = .accepted :=
    (congrArg Terminal.verdict hterminal).trans (verdict_of_zero hdecision)
  obtain ⟨hreports, hbudgets⟩ := hkeeps result hok hverdict
  have hwithin := (hconcludes.within_iff _).mp hreports
  rw [houtcomes] at hwithin
  refine ⟨hbudgets buildMessage (by rw [hsent]; simp) buildWallMs rfl, ?_, ?_⟩
  · rw [← (StageReply.status_execution (.inl rfl) hbuilt).2]
    exact hwithin built (by simp)
  · rw [← (StageReply.status_execution (.inr rfl) hran).2]
    exact hwithin ran (by simp)

/-- **Limits decide a verdict** exactly when the guest's own numbers keep them and the policy leaves
the build its fixed budget. -/
theorem keepsLimits_iff (h : host.Reached) :
    KeepsLimits request.policy.toResourcePolicyParts (host.sentBy boot request)
        (host.execute boot request).1 ↔
      (Supported request → ∀ build run, boot.Completes build run → run.exitCode = 0 →
        (build.usageWith run).Bounded → buildWallMs.toNat ≤ request.policy.wallTimeMs ∧
          build.usage.parts.Within request.policy.toResourcePolicyParts ∧
            run.usage.parts.Within request.policy.toResourcePolicyParts) := by
  have hzero := ResourceUsageParts.within_zero request.policy.toResourcePolicyParts
  by_cases hsupported : Supported request
  · rw [forall_prop_of_true hsupported]
    obtain ⟨provenance, calls, terminal, hcourse, hconcluded⟩ :=
      course_of_sentBy boot h hsupported
    constructor
    · intro hkeeps build run hcompletes hexit hbounded
      exact hkeeps.limits h hsupported hcompletes hexit hbounded
    · intro hlimits result hok hverdict
      rcases terminal with _ | terminal
      · exact absurd hverdict (not_accepted hconcluded nofun hok)
      obtain ⟨result', hok', hconcludes, rfl⟩ := hconcluded
      obtain rfl := Except.ok.inj (hok.symm.trans hok')
      -- only a course with both reports is accepted
      obtain ⟨build, run, built, ran, decision, hcompletes, hexit, hbounded, hbuilt, hran,
        houtcomes⟩ := hcourse.accepts rfl hverdict
      obtain ⟨hwall, hbuild, hrun⟩ := hlimits build run hcompletes hexit hbounded
      refine ⟨(hconcludes.within_iff _).mpr ?_, ?_⟩
      · -- the stages other than build and run used nothing
        rw [← (StageReply.status_execution (.inl rfl) hbuilt).2] at hbuild
        rw [← (StageReply.status_execution (.inr rfl) hran).2] at hrun
        rw [houtcomes]
        simp only [List.forall_mem_cons]
        exact ⟨hzero, hbuild, hrun, hzero, hzero, by simp⟩
      · -- the budget of the run is within that of the build
        have hrunWall : runWallMs.toNat ≤ buildWallMs.toNat := by decide
        rw [(hcourse.of_completes hcompletes).2.1]
        simp only [List.forall_mem_cons]
        refine ⟨nofun, ?_, ?_, by simp⟩
        · rintro budget ⟨⟩
          exact hwall
        · rintro budget ⟨⟩
          exact hrunWall.trans hwall
  · obtain ⟨-, error, herror⟩ := execute_unsupported hsupported boot host
    refine iff_of_true (fun result hok => ?_) fun hsupports => absurd hsupports hsupported
    cases hok.symm.trans herror

/-! ### Order -/

/-- What the protocol asks of the stages a guest reports. -/
def Boot.Honest (boot : Boot) : Prop :=
  (∀ build rest, boot.Builds build rest → build.Convertible → build.stage = .build) ∧
    ∀ build run, boot.Completes build run →
      run.stage = .run ∧ (run.exitCode = 0 ∨ (build.usageWith run).Bounded)

/-- With a build that succeeded, the first two replies were as expected. -/
theorem Boot.Honest.expected (h : boot.Honest) {build : StageReply} {rest : List Exchange}
    (hbuilds : boot.Builds build rest) {built : StageExecution}
    (hexecution : build.execution .build = .ok built) (hexit : build.exitCode = 0) :
    ∀ k < 2, (boot.reply k).Expected k := by
  obtain ⟨hagrees, hreport⟩ := hbuilds.reply
  have hstage := h.1 build rest hbuilds
    (converts_of_executionForStageOutput (.inl rfl) hexecution).1
  have hsucceeds : (boot.reply 1).Expected 1 :=
    (Exchange.succeeds_iff hreport).mpr ⟨hstage, hexit⟩
  intro k hk
  match k, hk with
  | 0, _ => exact hagrees
  | 1, _ => exact hsucceeds

theorem Course.conforms {sent : List Message} {calls : List StageCall}
    {provenance : ExecutionProvenance} {answer : Except ApplicationError EvaluationResult}
    {terminal : Option Terminal} {outcomes : List StageExecution}
    (h : Course boot sent outcomes terminal)
    (hconcluded : Concluded request provenance calls answer terminal) (hhonest : boot.Honest) :
    Conforms boot sent answer := by
  have hfailed (hterminal : terminal = some platformFailure) (n : Nat) :
      ∃ result, answer = .ok result ∧ (result.status = .failed ∧ result.verdict = .systemError ∨
        result.status = .completed ∧ (boot.reply n).RejectedAs result n) := by
    rw [hterminal] at hconcluded
    obtain ⟨result, hok, hstatus, hverdict⟩ := hconcluded.result
    exact ⟨result, hok, .inl ⟨hstatus, hverdict⟩⟩
  have hrefused (hverdict : ∀ t ∈ terminal, t.verdict ≠ .accepted) (result : EvaluationResult)
      (hok : answer = .ok result) (haccepted : result.verdict = .accepted) :
      (boot.reply 2).Expected 2 :=
    absurd haccepted (not_accepted hconcluded hverdict hok)
  have hconvertible {reply : StageReply} {stage : StageKind} {outcome : StageExecution}
      (hstage : stage = .build ∨ stage = .run) (hexecution : reply.execution stage = .ok outcome) :
      reply.Convertible := (converts_of_executionForStageOutput hstage hexecution).1
  cases h with
  | unopened closed =>
    exact conforms_nil fun _ => not_accepted hconcluded (by rintro _ ⟨⟩; nofun)
  | disagreed opened disagrees =>
    exact conforms_of_last (n := 0) (Nat.zero_le 2) rfl nofun (hrefused (by rintro _ ⟨⟩; nofun))
      fun _ => hfailed rfl 0
  | buildFailed opened agrees unusable =>
    refine conforms_of_last (n := 1) (Nat.le_succ 1) rfl (fun k hk => ?_)
      (hrefused (by rintro _ ⟨⟩; nofun)) fun _ => hfailed rfl 1
    obtain rfl := Nat.lt_one_iff.mp hk
    rw [opened]
    exact agrees
  | buildRejected builds execution exit =>
    obtain ⟨hagrees, hreport⟩ := builds.reply
    refine conforms_of_last (n := 1) (Nat.le_succ 1) rfl (fun k hk => ?_)
      (hrefused (by rintro _ ⟨⟩; nofun)) fun _ => ?_
    · obtain rfl := Nat.lt_one_iff.mp hk
      exact hagrees
    · obtain ⟨result, hok, hstatus, hverdict⟩ := hconcluded.result
      refine ⟨result, hok, .inr ⟨hstatus, (Exchange.rejects_iff hreport).mpr ⟨?_, exit⟩, hverdict⟩⟩
      exact hhonest.1 _ _ builds (hconvertible (.inl rfl) execution)
  | runFailed builds execution exit unusable =>
    exact conforms_of_last (n := 2) (Nat.le_refl 2) rfl (hhonest.expected builds execution exit)
      (hrefused (by rintro _ ⟨⟩; nofun)) fun _ => hfailed rfl 2
  | runRejected replies buildExecution buildExit runExecution runExit bounded =>
    obtain ⟨ran, rest, builds, hreport⟩ := id replies
    have hcompletes := hhonest.2 _ _ ⟨replies, buildExit, hconvertible (.inl rfl) buildExecution,
      hconvertible (.inr rfl) runExecution⟩
    refine conforms_of_last (n := 2) (Nat.le_refl 2) rfl
      (hhonest.expected builds buildExecution buildExit) (hrefused ?_) fun _ => ?_
    · rintro _ ⟨⟩ hverdict
      rcases rejectionVerdict_run _ with hrejection | hrejection <;>
      · cases hrejection.symm.trans hverdict
    · obtain ⟨result, hok, hstatus, hverdict⟩ := hconcluded.result
      refine ⟨result, hok, .inr ⟨hstatus, ?_, hverdict ▸ rejectionVerdict_run _⟩⟩
      exact (Exchange.rejects_iff replies.reply).mpr ⟨hcompletes.1, runExit⟩
  | excessive replies buildExecution buildExit runExecution unbounded =>
    obtain ⟨ran, rest, builds, hreport⟩ := id replies
    have hcompletes := hhonest.2 _ _ ⟨replies, buildExit, hconvertible (.inl rfl) buildExecution,
      hconvertible (.inr rfl) runExecution⟩
    refine conforms_of_last (n := 2) (Nat.le_refl 2) rfl
      (hhonest.expected builds buildExecution buildExit) (hrefused nofun) fun hnot => ?_
    -- an honest guest has a run that exited with zero here
    exact absurd ((Exchange.succeeds_iff replies.reply).mpr
      ⟨hcompletes.1, hcompletes.2.resolve_right unbounded⟩) hnot
  | accepted replies buildExecution buildExit runExecution runExit bounded decides =>
    obtain ⟨ran, rest, builds, hreport⟩ := id replies
    have hcompletes := hhonest.2 _ _ ⟨replies, buildExit, hconvertible (.inl rfl) buildExecution,
      hconvertible (.inr rfl) runExecution⟩
    have hexpected : (boot.reply 2).Expected 2 :=
      (Exchange.succeeds_iff replies.reply).mpr ⟨hcompletes.1, runExit⟩
    exact conforms_of_last (n := 2) (Nat.le_refl 2) rfl
      (hhonest.expected builds buildExecution buildExit) (fun _ _ _ => hexpected)
      fun hnot => absurd hexpected hnot

/-- A guest whose attempt conforms is honest. -/
theorem Course.honest {sent : List Message} {calls : List StageCall}
    {provenance : ExecutionProvenance} {answer : Except ApplicationError EvaluationResult}
    {terminal : Option Terminal} {outcomes : List StageExecution}
    (h : Course boot sent outcomes terminal)
    (hconcluded : Concluded request provenance calls answer terminal)
    (hconforms : Conforms boot sent answer) : boot.Honest := by
  refine ⟨fun build rest hbuilds hconvertible => ?_, fun build run hcompletes => ?_⟩
  · obtain ⟨-, hreport⟩ := hbuilds.reply
    rcases h.of_builds hbuilds hconvertible with ⟨-, rfl, rfl⟩ | rfl
    · by_cases hexpected : (boot.reply 1).Expected 1
      · exact ((Exchange.succeeds_iff hreport).mp hexpected).1
      · -- it was the build that was rejected, so the report was of the build
        obtain ⟨-, result, hok, hended⟩ := hconforms.ends 1 (by decide) hexpected
        obtain ⟨result', hok', hstatus, -⟩ := hconcluded.result
        obtain rfl := Except.ok.inj (hok.symm.trans hok')
        rcases hended with ⟨hfailed, -⟩ | ⟨-, hrejects, -⟩
        · cases hfailed.symm.trans hstatus
        · exact ((Exchange.rejects_iff hreport).mp hrejects).1
    · exact ((Exchange.succeeds_iff hreport).mp (hconforms.run (by decide))).1
  · have hreport := hcompletes.replies.reply
    obtain ⟨hnone, rfl, hcompleted, -⟩ := h.of_completes hcompletes
    by_cases hexpected : (boot.reply 2).Expected 2
    · obtain ⟨hstage, hexit⟩ := (Exchange.succeeds_iff hreport).mp hexpected
      exact ⟨hstage, .inl hexit⟩
    · obtain ⟨-, result, hok, hended⟩ := hconforms.ends 2 (by decide) hexpected
      rcases terminal with _ | terminal
      · obtain ⟨error, herror⟩ := hconcluded
        cases hok.symm.trans herror
      · obtain ⟨result', hok', hstatus, -⟩ := hconcluded.result
        obtain rfl := Except.ok.inj (hok.symm.trans hok')
        rcases hended with ⟨hfailed, -⟩ | ⟨-, hrejects, -⟩
        · cases hfailed.symm.trans (hstatus.trans (hcompleted _ rfl))
        · refine ⟨((Exchange.rejects_iff hreport).mp hrejects).1, .inr ?_⟩
          exact not_not.mp fun hunbounded => nomatch hnone.mpr hunbounded

/-- **The session follows the protocol** exactly when the guest reports each stage as the stage it
is, and a rejected run is within the limits together with its build. -/
theorem conforms_iff (h : host.Reached) :
    Conforms boot (host.sentBy boot request) (host.execute boot request).1 ↔
      (Supported request → boot.Honest) := by
  by_cases hsupported : Supported request
  · rw [forall_prop_of_true hsupported]
    obtain ⟨provenance, calls, terminal, hcourse, hconcluded⟩ :=
      course_of_sentBy boot h hsupported
    exact ⟨hcourse.honest hconcluded, hcourse.conforms hconcluded⟩
  · obtain ⟨hsent, error, herror⟩ := execute_unsupported hsupported boot host
    refine iff_of_true ?_ fun hsupports => absurd hsupports hsupported
    rw [hsent]
    refine conforms_nil fun result hok => ?_
    cases hok.symm.trans herror

end Attempts

/-! ### Fixtures -/

section Fixtures

attribute [local instance] asciiUppercase

/-- The fixture, with as much time as the executor gives a build. -/
def patientRequest : EvaluationRequest where
  toEvaluationRequestParts :=
    { fixtureParts with
      policy :=
        { fixtureParts.policy with
          wallTimeMs := 30000
          valid := by decide +kernel } }
  valid := by decide +kernel

/-- Where a build has its time, a guest that keeps the limits is accepted within them. -/
theorem keepsLimits_iff_workingGuest :
    KeepsLimits patientRequest.policy.toResourcePolicyParts
      ((JudgeHost.tryNew fixtureNode).sentBy workingGuest patientRequest)
      ((JudgeHost.tryNew fixtureNode).execute workingGuest patientRequest).1 := by
  refine (keepsLimits_iff (.tryNew fixtureNode)).mpr fun _ build run hcompletes _ _ => ?_
  obtain ⟨rfl, rfl⟩ := hcompletes.replies.unique workingGuest_completes.replies
  exact ⟨by decide, ⟨by decide, by decide, by decide, by decide⟩,
    ⟨by decide, by decide, by decide, by decide⟩⟩

/-- Five seconds of processor time where one is allowed. -/
theorem slowGuest_accepted :
    ¬KeepsLimits fixtureRequest.policy.toResourcePolicyParts
      ((JudgeHost.tryNew fixtureNode).sentBy
        (quietGuest (.build, ⟨0, 0, 0, 0⟩) (.run, ⟨5000, 0, 0, 0⟩)) fixtureRequest)
      ((JudgeHost.tryNew fixtureNode).execute
        (quietGuest (.build, ⟨0, 0, 0, 0⟩) (.run, ⟨5000, 0, 0, 0⟩)) fixtureRequest).1 := by
  intro hkeeps
  have hbuild : (GuestUsage.mk 0 0 0 0).parts.Bounded :=
    ⟨by decide, by decide, by decide, by decide⟩
  have hrun : (GuestUsage.mk 5000 0 0 0).parts.Bounded :=
    ⟨by decide, by decide, by decide, by decide⟩
  obtain ⟨-, -, hwithin⟩ := hkeeps.limits (.tryNew fixtureNode) supported_fixtureRequest
    (quietGuest_completes (.build, _) (.run, _) hbuild hrun) rfl
    ⟨by decide, by decide, by decide, by decide⟩
  exact absurd hwithin.cpuTimeMs (by decide)

/-- A session with a guest that reports each stage as what it is conforms. -/
theorem conforms_iff_workingGuest :
    Conforms workingGuest
      ((JudgeHost.tryNew fixtureNode).sentBy workingGuest fixtureRequest)
      ((JudgeHost.tryNew fixtureNode).execute workingGuest fixtureRequest).1 := by
  refine (conforms_iff (.tryNew fixtureNode)).mpr fun _ => ⟨fun build rest hbuilds _ => ?_,
    fun build run hcompletes => ?_⟩
  · obtain ⟨ran, rest', hbuilds', -⟩ := workingGuest_completes.replies
    obtain ⟨rfl, -⟩ := hbuilds.unique hbuilds'
    rfl
  · obtain ⟨rfl, rfl⟩ := hcompletes.replies.unique workingGuest_completes.replies
    exact ⟨rfl, .inl rfl⟩

/-- A guest that reports its build a second time when it is asked to run is accepted. -/
theorem repeatedBuild_accepted :
    ¬Conforms (quietGuest (.build, ⟨0, 0, 0, 0⟩) (.build, ⟨0, 0, 0, 0⟩))
      ((JudgeHost.tryNew fixtureNode).sentBy
        (quietGuest (.build, ⟨0, 0, 0, 0⟩) (.build, ⟨0, 0, 0, 0⟩)) fixtureRequest)
      ((JudgeHost.tryNew fixtureNode).execute
        (quietGuest (.build, ⟨0, 0, 0, 0⟩) (.build, ⟨0, 0, 0, 0⟩)) fixtureRequest).1 := by
  intro hconforms
  have husage : (GuestUsage.mk 0 0 0 0).parts.Bounded :=
    ⟨by decide, by decide, by decide, by decide⟩
  obtain ⟨provenance, calls, terminal, hcourse, hconcluded⟩ := course_of_sentBy
    (quietGuest (.build, ⟨0, 0, 0, 0⟩) (.build, ⟨0, 0, 0, 0⟩)) (.tryNew fixtureNode)
    supported_fixtureRequest
  have hrun := ((hcourse.honest hconcluded hconforms).2 _ _
    (quietGuest_completes (.build, _) (.build, _) husage husage)).1
  cases hrun

end Fixtures
end OpenOJ
