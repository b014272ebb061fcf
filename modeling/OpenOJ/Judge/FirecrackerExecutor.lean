import OpenOJ.Application.Pipeline
import OpenOJ.Guest.Codec
import OpenOJ.Judge.Evaluator

/-!
# The Firecracker executor

The executor drives a guest through the stages of the plan: it boots a microVM when the first stage
needs one, negotiates, and sends one message for the build and one for the run. What a guest does is
a script (`Boot`), of which every exchange takes the next reply (`Exchange`); `JudgeHost` is what
the executor keeps between its calls.

* `JudgeHost.ensureSession`, `JudgeHost.ensureNegotiated`, `JudgeHost.runGuestStage` and
  `JudgeHost.teardown` are its steps, `JudgeHost.executeStage` what it does for a stage of the plan,
  and `firecracker` the executor that the pipeline calls;
* `JudgeHost.execute` is an attempt, and `JudgeHost.Reached` says that an executor has made some
  before.

The replies of a guest are sorted by what becomes of them: one that agrees to the negotiation
(`Exchange.Agrees`), the report of a stage (`Exchange.report`), which is converted or is not
(`StageReply.execution`), and one of which nothing can be made (`Exchange.Unusable`).

* `JudgeHost.Reached.fresh`: every attempt starts afresh, whatever became of those before it;
* `JudgeHost.Ready.runGuestStage_cases`: a guest's stage, whatever the guest replies;
* `JudgeHost.Fresh.buildStep`, `JudgeHost.Ready.runStep`: so a build and a run can do only a few
  things (`JudgeHost.BuildStep`, `JudgeHost.RunStep`).
-/

namespace OpenOJ

open Outcome Guest

/-- `BUILD_WALL_MS`. -/
def buildWallMs : UInt64 := 30000

/-- `RUN_WALL_MS`. -/
def runWallMs : UInt64 := 10000

/-! ### Guests -/

/-- What comes of sending a message and receiving the reply: the transport fails on one of these,
or a message arrives, and this is one that the decoder lets through. -/
inductive Exchange where
  | failed
  | replied (message : Message) (readable : message.ReadBounds)

/-- What starting a microVM comes to. -/
inductive Boot where
  | bootstrapFailed
  | channelUnavailable
  | opened (exchanges : List Exchange)

/-- The replies to come; a guest that has no more is silent until the read times out. -/
def Boot.exchanges : Boot → List Exchange
  | .opened exchanges => exchanges
  | .bootstrapFailed | .channelUnavailable => []

/-- `map_firecracker`. -/
def transportFailed : ApplicationError := .invalidExecutorOutput "guest transport failed"

/-! ### The executor -/

/-- The executor, of whose configuration only the node is used here. -/
structure FirecrackerExecutor where
  nodeId : NodeId
  session : Option (List Exchange)
  vm : Option Nat
  negotiated : Bool
  lastRunExit : Option Int32
  terminated : Bool

/-- An executor with the traces it leaves: what was sent to guests, how many microVMs were created,
and which of them were terminated. -/
structure JudgeHost extends FirecrackerExecutor where
  sent : List Message
  created : Nat
  reclaimed : List Nat

/-- `try_new`. -/
def JudgeHost.tryNew (nodeId : NodeId) : JudgeHost where
  nodeId
  session := none
  vm := none
  negotiated := false
  lastRunExit := none
  terminated := false
  sent := []
  created := 0
  reclaimed := []

/-- `activate_session`, of a new microVM. -/
def JudgeHost.activateSession (exchanges : List Exchange) (host : JudgeHost) : JudgeHost :=
  { host with created := host.created + 1, vm := some host.created, session := some exchanges }

/-- `ensure_session`. -/
def JudgeHost.ensureSession (boot : Boot) (host : JudgeHost) :
    Except ApplicationError Unit × JudgeHost :=
  if host.session.isSome then (.ok (), host)
  else
    let vm := host.created
    match boot with
    | .bootstrapFailed =>
      (.error (.invalidExecutorOutput "microvm bootstrap failed"),
        { host with created := vm + 1, reclaimed := host.reclaimed ++ [vm] })
    | .channelUnavailable =>
      (.error (.invalidExecutorOutput "guest channel unavailable"),
        { host with created := vm + 1, reclaimed := host.reclaimed ++ [vm] })
    | .opened exchanges => (.ok (), host.activateSession exchanges)

/-- `begin_attempt`. -/
def JudgeHost.beginAttempt (host : JudgeHost) : JudgeHost :=
  if host.terminated then
    { host with negotiated := false, lastRunExit := none, terminated := false }
  else host

/-- A `send` and the `recv` that follows it. -/
def JudgeHost.exchange (message : Message) (host : JudgeHost) :
    Except ApplicationError Message × JudgeHost :=
  match host.session with
  | none => (.error .unsupportedCapability, host)
  | some exchanges =>
    let host := { host with sent := host.sent ++ [message], session := some exchanges.tail }
    match exchanges with
    | .replied reply _ :: _ => (.ok reply, host)
    | .failed :: _ | [] => (.error transportFailed, host)

/-- The message of `ensure_negotiated`. -/
def negotiateMessage : Message := .negotiate ["algorithm.batch"]

/-- `ensure_negotiated`. -/
def JudgeHost.ensureNegotiated (host : JudgeHost) : Except ApplicationError Unit × JudgeHost :=
  if host.negotiated then (.ok (), host)
  else
    match host.exchange negotiateMessage with
    | (.error error, host) => (.error error, host)
    | (.ok (.negotiated true), host) => (.ok (), { host with negotiated := true })
    | (.ok (.negotiated false), host) => (.error .unsupportedCapability, host)
    | (.ok _, host) => (.error (.invalidExecutorOutput "unexpected negotiate reply"), host)

/-- The message of `run_guest_stage`. -/
def stageMessage (stage : StageKind) (argv : List String) (wallTimeMs : UInt64) : Message :=
  match stage with
  | .build => .build argv wallTimeMs
  | .prepare | .run | .check | .aggregate => .run argv wallTimeMs

section Stages

variable [Uppercase]

/-- `run_guest_stage`. -/
def JudgeHost.runGuestStage (boot : Boot) (stage : StageKind) (argv : List String)
    (wallTimeMs : UInt64) (host : JudgeHost) :
    Except ApplicationError StageExecution × JudgeHost :=
  match host.ensureSession boot with
  | (.error error, host) => (.error error, host)
  | (.ok (), host) =>
    match host.ensureNegotiated with
    | (.error error, host) => (.error error, host)
    | (.ok (), host) =>
      match host.exchange (stageMessage stage argv wallTimeMs) with
      | (.error error, host) => (.error error, host)
      -- which stage the guest says it is about is not looked at
      | (.ok (.stageOutput _ exitCode outputDigest outputBytes usage diagnostics), host) =>
        let host :=
          if stage = .run then { host with lastRunExit := some exitCode } else host
        (executionForStageOutput stage exitCode outputDigest outputBytes usage diagnostics, host)
      | (.ok _, host) => (.error (.invalidExecutorOutput "expected stage output"), host)

/-- `teardown`. -/
def JudgeHost.teardown (host : JudgeHost) : JudgeHost :=
  { host with
    session := none
    vm := none
    reclaimed := host.reclaimed ++ host.vm.toList
    terminated := true }

/-- `default_argv`. -/
def defaultArgv : List String := ["printf", "ok"]

/-- `stage_failed`. -/
def stageFailed : StageExecution := .failed .default [] []

/-- What the stages without a guest hand over. -/
def stagePassed (decision : Option Decision) : StageExecution := .succeeded .default [] [] decision

/-- The match of `execute` on a stage. -/
def JudgeHost.stageOutcome (boot : Boot) (stage : StageKind) (host : JudgeHost) :
    Except ApplicationError StageExecution × JudgeHost :=
  match stage with
  | .prepare | .aggregate => (.ok (stagePassed none), host)
  | .build => host.runGuestStage boot .build defaultArgv buildWallMs
  | .run => host.runGuestStage boot .run defaultArgv runWallMs
  | .check =>
    match host.lastRunExit with
    | some exitCode => ((hostCheckDecision exitCode).map (stagePassed ∘ some), host)
    | none => (.error (.invalidExecutorOutput "check stage before run"), host)

/-- `StageExecutor::execute`. -/
def JudgeHost.executeStage (boot : Boot) (context : StageContext) (host : JudgeHost) :
    StageExecution × JudgeHost :=
  if host.terminated then (stageFailed, host)
  else
    match host.stageOutcome boot context.stage with
    | (.ok outcome, host) => (outcome, host)
    | (.error _, host) => (stageFailed, host.teardown)

/-- The executor as `evaluate` has it, where starting a microVM comes to `boot`. -/
def firecracker (boot : Boot) : StageExecutor JudgeHost where
  kind _ := .firecracker
  productionEligible _ := false
  nodeId host := some host.nodeId
  supports _ capability := capability.value = "algorithm.batch"
  execute := JudgeHost.executeStage boot

/-- `JudgeExecutor::execute`. -/
def JudgeHost.execute (boot : Boot) (request : EvaluationRequest) (host : JudgeHost) :
    Except ApplicationError EvaluationResult × JudgeHost :=
  let (result, host) := evaluate (firecracker boot) request host.beginAttempt
  (result, host.teardown)

/-- The executor of a node between two attempts. -/
inductive JudgeHost.Reached : JudgeHost → Prop where
  | tryNew (nodeId : NodeId) : (JudgeHost.tryNew nodeId).Reached
  | execute {host : JudgeHost} (boot : Boot) (request : EvaluationRequest) (h : host.Reached) :
    (host.execute boot request).2.Reached
  | teardown {host : JudgeHost} (h : host.Reached) : host.teardown.Reached

end Stages

/-! ### What replies are -/

/-- The guest supports what it is asked for. -/
def Exchange.Agrees : Exchange → Prop
  | .replied (.negotiated true) _ => True
  | _ => False

/-- What a guest reports of a stage. -/
structure StageReply where
  stage : Stage
  exitCode : Int32
  outputDigest : String
  outputBytes : UInt64
  usage : GuestUsage
  diagnostics : List GuestDiagnostic

def Exchange.report : Exchange → Option StageReply
  | .replied (.stageOutput stage exitCode outputDigest outputBytes usage diagnostics) _ =>
    some ⟨stage, exitCode, outputDigest, outputBytes, usage, diagnostics⟩
  | _ => none

section Stages

variable [Uppercase]

/-- What the evaluator makes of a report. -/
def StageReply.execution (reply : StageReply) (stage : StageKind) :
    Except ApplicationError StageExecution :=
  executionForStageOutput stage reply.exitCode reply.outputDigest reply.outputBytes reply.usage
    reply.diagnostics

/-- The reply is no report that the evaluator can convert. -/
def Exchange.Unusable (exchange : Exchange) (stage : StageKind) : Prop :=
  ∀ reply, exchange.report = some reply → ∀ outcome, reply.execution stage ≠ .ok outcome

end Stages

/-! ### Between attempts -/

/-- An executor at the start of an attempt. -/
structure JudgeHost.Fresh (host : JudgeHost) : Prop where
  session : host.session = none
  vm : host.vm = none
  negotiated : host.negotiated = false
  lastRunExit : host.lastRunExit = none
  terminated : host.terminated = false

/-- **Every attempt starts afresh**, whatever became of those before it. -/
theorem JudgeHost.Reached.fresh [Uppercase] {host : JudgeHost} (h : host.Reached) :
    host.beginAttempt.Fresh := by
  cases h with
  | tryNew nodeId => exact ⟨rfl, rfl, rfl, rfl, rfl⟩
  | execute boot request h => exact ⟨rfl, rfl, rfl, rfl, rfl⟩
  | teardown h => exact ⟨rfl, rfl, rfl, rfl, rfl⟩

theorem JudgeHost.sent_beginAttempt (host : JudgeHost) : host.beginAttempt.sent = host.sent := by
  unfold beginAttempt
  split <;> rfl

/-! ### Exchanges -/

section Exchanges

variable {host : JudgeHost} {exchanges : List Exchange}

/-- The host after a message to a guest with these replies to come. -/
def JudgeHost.after (host : JudgeHost) (message : Message) (exchanges : List Exchange) :
    JudgeHost :=
  { host with sent := host.sent ++ [message], session := some exchanges.tail }

theorem JudgeHost.exchange_replied {message reply : Message} {readable : reply.ReadBounds}
    {rest : List Exchange} (h : host.session = some (.replied reply readable :: rest)) :
    host.exchange message = (.ok reply, host.after message (.replied reply readable :: rest)) := by
  rw [exchange, h]
  rfl

theorem JudgeHost.exchange_failed {message : Message} (h : host.session = some exchanges)
    (hfailed : ∀ reply readable rest, exchanges ≠ .replied reply readable :: rest) :
    host.exchange message = (.error transportFailed, host.after message exchanges) := by
  rw [exchange, h]
  match exchanges, hfailed with
  | [], _ => rfl
  | .failed :: _, _ => rfl
  | .replied reply readable :: rest, hfailed => exact absurd rfl (hfailed reply readable rest)

/-- A guest that agrees has been negotiated with. -/
theorem JudgeHost.ensureNegotiated_agreed {agreed : Exchange} {rest : List Exchange}
    (hnegotiated : host.negotiated = false) (h : host.session = some (agreed :: rest))
    (hagrees : agreed.Agrees) :
    host.ensureNegotiated =
      (.ok (), { host.after negotiateMessage (agreed :: rest) with negotiated := true }) := by
  match agreed, hagrees with
  | .replied (.negotiated true) readable, _ =>
    rw [ensureNegotiated, hnegotiated, exchange_replied h]
    rfl

/-- A guest that does not agree is not asked for anything else. -/
theorem JudgeHost.ensureNegotiated_disagreed (hnegotiated : host.negotiated = false)
    (h : host.session = some exchanges) (hagrees : ∀ e ∈ exchanges.head?, ¬e.Agrees) :
    ∃ error, host.ensureNegotiated = (.error error, host.after negotiateMessage exchanges) := by
  rw [ensureNegotiated, hnegotiated]
  match exchanges with
  | [] | .failed :: _ =>
    rw [exchange_failed h (by simp)]
    exact ⟨_, rfl⟩
  | .replied reply readable :: rest =>
    rw [exchange_replied h]
    have hreply := hagrees _ rfl
    cases reply with
    | negotiated supported =>
      cases supported
      · exact ⟨_, rfl⟩
      · exact absurd trivial hreply
    | _ => exact ⟨_, rfl⟩

end Exchanges

/-! ### Stages -/

/-- The message of the build stage. -/
def buildMessage : Message := .build defaultArgv buildWallMs

/-- The message of the run stage. -/
def runMessage : Message := .run defaultArgv runWallMs

/-- The executor has negotiated with a guest, of which these replies are to come. -/
structure JudgeHost.Ready (host : JudgeHost) (exchanges : List Exchange) : Prop where
  session : host.session = some exchanges
  negotiated : host.negotiated = true
  terminated : host.terminated = false

/-- What is done about a session and the negotiation is done once. -/
theorem JudgeHost.Ready.ensured {host : JudgeHost} {exchanges : List Exchange}
    (h : host.Ready exchanges) (boot : Boot) :
    host.ensureSession boot = (.ok (), host) ∧ host.ensureNegotiated = (.ok (), host) := by
  refine ⟨?_, ?_⟩
  · rw [ensureSession, h.session]
    rfl
  · rw [ensureNegotiated, h.negotiated]
    rfl

section Stages

variable [Uppercase]

/-- What the build stage of an attempt can do. -/
inductive JudgeHost.BuildStep (boot : Boot) (host : JudgeHost) :
    StageExecution → JudgeHost → Prop where
  | unopened {next : JudgeHost} (closed : ∀ exchanges, boot ≠ .opened exchanges)
      (sent : next.sent = host.sent) : BuildStep boot host stageFailed next
  | disagreed {exchanges : List Exchange} {next : JudgeHost} (opened : boot = .opened exchanges)
      (disagrees : ∀ e ∈ exchanges.head?, ¬e.Agrees)
      (sent : next.sent = host.sent ++ [negotiateMessage]) : BuildStep boot host stageFailed next
  | failed {agreed : Exchange} {rest : List Exchange} {next : JudgeHost}
      (opened : boot = .opened (agreed :: rest)) (agrees : agreed.Agrees)
      (unusable : ∀ e ∈ rest.head?, e.Unusable .build)
      (sent : next.sent = host.sent ++ [negotiateMessage, buildMessage]) :
    BuildStep boot host stageFailed next
  | built {agreed built : Exchange} {rest : List Exchange} {reply : StageReply}
      {outcome : StageExecution} {next : JudgeHost}
      (opened : boot = .opened (agreed :: built :: rest)) (agrees : agreed.Agrees)
      (report : built.report = some reply) (execution : reply.execution .build = .ok outcome)
      (sent : next.sent = host.sent ++ [negotiateMessage, buildMessage]) (ready : next.Ready rest) :
    BuildStep boot host outcome next

/-- What the run stage of an attempt can do after a build. -/
inductive JudgeHost.RunStep (exchanges : List Exchange) (host : JudgeHost) :
    StageExecution → JudgeHost → Prop where
  | failed {next : JudgeHost} (unusable : ∀ e ∈ exchanges.head?, e.Unusable .run)
      (sent : next.sent = host.sent ++ [runMessage]) : RunStep exchanges host stageFailed next
  | ran {ran : Exchange} {rest : List Exchange} {reply : StageReply} {outcome : StageExecution}
      {next : JudgeHost} (replies : exchanges = ran :: rest) (report : ran.report = some reply)
      (execution : reply.execution .run = .ok outcome)
      (sent : next.sent = host.sent ++ [runMessage])
      (exit : next.lastRunExit = some reply.exitCode) (live : next.terminated = false) :
    RunStep exchanges host outcome next

section Asking

variable {host : JudgeHost} {exchanges : List Exchange} (boot : Boot) (stage : StageKind)
  (argv : List String) (wallTimeMs : UInt64)

/-- A report is handed to the evaluator. -/
theorem JudgeHost.Ready.runGuestStage_report {answer : Exchange} {rest : List Exchange}
    (h : host.Ready (answer :: rest)) {reply : StageReply} (hreport : answer.report = some reply) :
    ∃ next, host.runGuestStage boot stage argv wallTimeMs = (reply.execution stage, next) ∧
      next.sent = host.sent ++ [stageMessage stage argv wallTimeMs] ∧ next.Ready rest ∧
      (stage = .run → next.lastRunExit = some reply.exitCode) := by
  obtain ⟨hsession, hnegotiated⟩ := h.ensured boot
  match answer, hreport with
  | .replied (.stageOutput kind exitCode outputDigest outputBytes usage diagnostics) readable,
      hreport =>
    obtain rfl := Option.some_inj.mp hreport
    unfold runGuestStage
    simp only [hsession, hnegotiated, exchange_replied h.session]
    refine ⟨_, rfl, ?_, ⟨?_, ?_, ?_⟩, fun hrun => ?_⟩
    · split <;> rfl
    · split <;> rfl
    · split <;> exact h.negotiated
    · split <;> exact h.terminated
    · rw [if_pos hrun]

/-- Anything else is a failure. -/
theorem JudgeHost.Ready.runGuestStage_other (h : host.Ready exchanges)
    (hreport : ∀ e ∈ exchanges.head?, e.report = none) :
    ∃ error, host.runGuestStage boot stage argv wallTimeMs =
      (.error error, host.after (stageMessage stage argv wallTimeMs) exchanges) := by
  obtain ⟨hsession, hnegotiated⟩ := h.ensured boot
  unfold runGuestStage
  simp only [hsession, hnegotiated]
  match exchanges, h.session with
  | [], hexchanges | .failed :: _, hexchanges =>
    rw [exchange_failed hexchanges (by simp)]
    exact ⟨_, rfl⟩
  | .replied reply readable :: rest, hexchanges =>
    rw [exchange_replied hexchanges]
    cases reply with
    | stageOutput stage exitCode outputDigest outputBytes usage diagnostics =>
      cases hreport _ rfl
    | _ => exact ⟨_, rfl⟩

/-- **A guest's stage**, whatever the guest replies. -/
theorem JudgeHost.Ready.runGuestStage_cases (h : host.Ready exchanges) :
    ∃ answer next, host.runGuestStage boot stage argv wallTimeMs = (answer, next) ∧
      next.sent = host.sent ++ [stageMessage stage argv wallTimeMs] ∧
      ((∃ error, answer = .error error) ∧ (∀ e ∈ exchanges.head?, e.Unusable stage) ∨
        ∃ asked rest reply outcome, exchanges = asked :: rest ∧ asked.report = some reply ∧
          reply.execution stage = .ok outcome ∧ answer = .ok outcome ∧ next.Ready rest ∧
            (stage = .run → next.lastRunExit = some reply.exitCode)) := by
  rcases exchanges with _ | ⟨asked, rest⟩
  · obtain ⟨error, herror⟩ := h.runGuestStage_other boot stage argv wallTimeMs (by simp)
    exact ⟨_, _, herror, rfl, .inl ⟨⟨error, rfl⟩, by simp⟩⟩
  · rcases hreport : asked.report with _ | reply
    · obtain ⟨error, herror⟩ := h.runGuestStage_other boot stage argv wallTimeMs
        (fun e he => Option.some_inj.mp he ▸ hreport)
      refine ⟨_, _, herror, rfl, .inl ⟨⟨error, rfl⟩, fun e he => ?_⟩⟩
      obtain rfl := Option.some_inj.mp he
      intro reply hreply
      rw [hreport] at hreply
      cases hreply
    · obtain ⟨next, hnext, hsent, hready, hexit⟩ :=
        h.runGuestStage_report boot stage argv wallTimeMs hreport
      refine ⟨_, next, hnext, hsent, ?_⟩
      rcases hexecution : reply.execution stage with error | outcome
      · refine .inl ⟨⟨error, rfl⟩, fun e he reply' hreply' outcome houtcome => ?_⟩
        obtain rfl := Option.some_inj.mp he
        obtain rfl := Option.some_inj.mp (hreport.symm.trans hreply')
        cases hexecution.symm.trans houtcome
      · exact .inr ⟨asked, rest, reply, outcome, rfl, hreport, hexecution, rfl, hready, hexit⟩

end Asking

section Steps

variable {host : JudgeHost} (boot : Boot) (request : EvaluationRequest)

/-- Without a session nothing is sent. -/
theorem JudgeHost.Fresh.runGuestStage_closed (h : host.Fresh)
    (hclosed : ∀ exchanges, boot ≠ .opened exchanges) (stage : StageKind) (argv : List String)
    (wallTimeMs : UInt64) :
    ∃ error next, host.runGuestStage boot stage argv wallTimeMs = (.error error, next) ∧
      next.sent = host.sent := by
  unfold runGuestStage ensureSession
  rw [h.session]
  cases boot with
  | bootstrapFailed => exact ⟨_, _, rfl, rfl⟩
  | channelUnavailable => exact ⟨_, _, rfl, rfl⟩
  | opened exchanges => exact absurd rfl (hclosed exchanges)

/-- Without an agreement nothing but the offer is sent. -/
theorem JudgeHost.Fresh.runGuestStage_disagreed (h : host.Fresh) {exchanges : List Exchange}
    (hdisagrees : ∀ e ∈ exchanges.head?, ¬e.Agrees) (stage : StageKind) (argv : List String)
    (wallTimeMs : UInt64) :
    ∃ error next, host.runGuestStage (.opened exchanges) stage argv wallTimeMs =
        (.error error, next) ∧ next.sent = host.sent ++ [negotiateMessage] := by
  obtain ⟨error, hnegotiated⟩ : ∃ error, (host.activateSession exchanges).ensureNegotiated =
      (.error error, (host.activateSession exchanges).after negotiateMessage exchanges) :=
    ensureNegotiated_disagreed h.negotiated rfl hdisagrees
  unfold runGuestStage ensureSession
  rw [h.session]
  simp only [Option.isSome_none, Bool.false_eq_true, if_false, hnegotiated]
  exact ⟨_, _, rfl, rfl⟩

/-- With an agreement it goes on as from a session. -/
theorem JudgeHost.Fresh.runGuestStage_agreed (h : host.Fresh) {agreed : Exchange}
    {rest : List Exchange} (hagrees : agreed.Agrees) (stage : StageKind) (argv : List String)
    (wallTimeMs : UInt64) :
    ∃ ready : JudgeHost, ready.Ready rest ∧ ready.sent = host.sent ++ [negotiateMessage] ∧
      host.runGuestStage (.opened (agreed :: rest)) stage argv wallTimeMs =
        ready.runGuestStage (.opened (agreed :: rest)) stage argv wallTimeMs := by
  have hnegotiated : (host.activateSession (agreed :: rest)).ensureNegotiated =
      (.ok (),
        { (host.activateSession (agreed :: rest)).after negotiateMessage (agreed :: rest) with
          negotiated := true }) :=
    ensureNegotiated_agreed h.negotiated rfl hagrees
  have hready : JudgeHost.Ready
      { (host.activateSession (agreed :: rest)).after negotiateMessage (agreed :: rest) with
        negotiated := true } rest :=
    ⟨rfl, rfl, h.terminated⟩
  refine ⟨_, hready, rfl, ?_⟩
  obtain ⟨hsession, hagreed⟩ := hready.ensured (.opened (agreed :: rest))
  unfold runGuestStage
  rw [hsession]
  simp only [hagreed]
  rw [ensureSession, h.session]
  simp only [Option.isSome_none, Bool.false_eq_true, if_false, hnegotiated]

/-- The first guest stage of an attempt boots a microVM and negotiates. -/
theorem JudgeHost.Fresh.buildStep (h : host.Fresh) :
    BuildStep boot host (executeStage boot ⟨request, .build⟩ host).1
      (executeStage boot ⟨request, .build⟩ host).2 := by
  unfold executeStage stageOutcome
  simp only [h.terminated]
  by_cases hclosed : ∀ exchanges, boot ≠ .opened exchanges
  · obtain ⟨error, next, hnext, hsent⟩ := h.runGuestStage_closed boot hclosed .build defaultArgv
      buildWallMs
    rw [hnext]
    exact .unopened hclosed hsent
  obtain ⟨exchanges, hopened⟩ := not_forall_not.mp hclosed
  subst hopened
  by_cases hagrees : ∃ e ∈ exchanges.head?, e.Agrees
  · obtain ⟨agreed, hhead, hagrees⟩ := hagrees
    obtain ⟨rest, rfl⟩ := List.head?_eq_some_iff.mp hhead
    obtain ⟨ready, hready, hsent, hsame⟩ := h.runGuestStage_agreed hagrees .build defaultArgv
      buildWallMs
    obtain ⟨answer, next, hanswer, hsent', hcases⟩ :=
      hready.runGuestStage_cases (.opened (agreed :: rest)) .build defaultArgv buildWallMs
    rw [hsame, hanswer]
    rw [hsent, List.append_assoc] at hsent'
    rcases hcases with ⟨⟨error, rfl⟩, hunusable⟩ | ⟨built, rest', reply, outcome, rfl, hreport,
      hexecution, rfl, hnext, -⟩
    · exact .failed rfl hagrees hunusable hsent'
    · exact .built rfl hagrees hreport hexecution hsent' hnext
  · have hnone : ∀ e ∈ exchanges.head?, ¬e.Agrees := fun e he hagree => hagrees ⟨e, he, hagree⟩
    obtain ⟨error, next, hnext, hsent⟩ := h.runGuestStage_disagreed hnone .build defaultArgv
      buildWallMs
    rw [hnext]
    exact .disagreed rfl hnone hsent

theorem JudgeHost.Ready.runStep {exchanges : List Exchange} (h : host.Ready exchanges) :
    RunStep exchanges host (executeStage boot ⟨request, .run⟩ host).1
      (executeStage boot ⟨request, .run⟩ host).2 := by
  obtain ⟨answer, next, hanswer, hsent, hcases⟩ :=
    h.runGuestStage_cases boot .run defaultArgv runWallMs
  unfold executeStage stageOutcome
  simp only [h.terminated, hanswer]
  rcases hcases with ⟨⟨error, rfl⟩, hunusable⟩ | ⟨ran, rest, reply, outcome, hexchanges, hreport,
    hexecution, rfl, hready, hexit⟩
  · exact .failed hunusable hsent
  · exact .ran hexchanges hreport hexecution hsent (hexit rfl) hready.terminated

end Steps
end Stages
end OpenOJ
