import OpenOJ.Foundation.Machine
import OpenOJ.Judge.FirecrackerExecutor

/-!
# Attempts on one executor

An executor is called for one attempt after the other (`attempts`). What it keeps between two calls
is reset in several places, on success and on failure, and comes to the same each time: an attempt
starts as on a new executor, so that its answer depends on nothing before it, and of the microVMs
that were created the executor holds at most one, all others having been terminated.

* `JudgeHost.Accounted`: the account of microVMs, which every step of an attempt keeps, one lemma
  for each step. `JudgeHost.live` are those that exist, and `JudgeHost.During` says that an attempt
  has come to some state, in the middle of a step included;
* `JudgeHost.During.held`: so one microVM exists at a time, wherever in an attempt the executor is;
* `JudgeHost.Blind`: a step does the same on hosts that differ only in what attempts before it have
  left behind (`JudgeHost.Alike`). Every step is blind, and so is an attempt
  (`firecracker_matches`).

`attempts_isolated` puts them together for the executor after any calls: what a call answers is what
it would answer on a new executor, at no time does more than one microVM exist, and between two
calls none does.
-/

namespace OpenOJ

open Guest

section Calls

variable [Uppercase]

/-- A call on an executor. The first of them carries what starting a microVM comes to in it. -/
inductive ExecutorCall where
  | execute (boot : Boot) (request : EvaluationRequest)
  | teardown

/-- The executor of a node, call by call. -/
def attempts (nodeId : NodeId) :
    Machine JudgeHost ExecutorCall (Option (Except ApplicationError EvaluationResult)) where
  start := .tryNew nodeId
  step
    | .execute boot request, host =>
      let (result, host) := host.execute boot request
      (some result, host)
    | .teardown, host => (none, host.teardown)

theorem attempts_reached (nodeId : NodeId) (calls : List ExecutorCall) :
    ((attempts nodeId).run calls).Reached := by
  refine Machine.Reachable.induction (.tryNew nodeId) (fun host call _ h => ?_)
    ((attempts nodeId).reachable_run calls)
  cases call with
  | execute boot request => exact h.execute boot request
  | teardown => exact h.teardown

/-! ### In the course of an attempt -/

/-- The microVMs that were created and have not been terminated. -/
def JudgeHost.live (host : JudgeHost) : List Nat :=
  (List.range host.created).filter (· ∉ host.reclaimed)

/-- The executor between two stages of an attempt. -/
def JudgeHost.Between (boot : Boot) (request : EvaluationRequest) (host state : JudgeHost) : Prop :=
  ∃ calls, calls <+: (firecracker boot).calls request host.beginAttempt ∧
    (firecracker boot).Runs calls host.beginAttempt state

/-- `FirecrackerVm::new` in `ensure_session`: the executor does not hold the microVM yet. -/
def JudgeHost.launching (host : JudgeHost) : JudgeHost := { host with created := host.created + 1 }

/-- What an executor passes through in the course of an attempt. -/
inductive JudgeHost.During (boot : Boot) (request : EvaluationRequest) (host : JudgeHost) :
    JudgeHost → Prop where
  | stage {state : JudgeHost} (h : host.Between boot request state) : During boot request host state
  | launching {state : JudgeHost} (h : host.Between boot request state)
      (live : state.terminated = false) (closed : state.session.isSome = false) :
    During boot request host state.launching
  | ensured {state : JudgeHost} (h : host.Between boot request state) :
    During boot request host (state.ensureSession boot).2
  | negotiated {state : JudgeHost} (h : host.Between boot request state) :
    During boot request host (state.ensureSession boot).2.ensureNegotiated.2
  | answered {state : JudgeHost} (h : host.Between boot request state) (stage : StageKind) :
    During boot request host (state.stageOutcome boot stage).2
  | ended : During boot request host (host.execute boot request).2

end Calls

/-! ### What an executor holds -/

/-- The executor of a node: every microVM was terminated once, in the order of their creation,
except for the one that it holds together with its session. -/
structure JudgeHost.Accounted (nodeId : NodeId) (host : JudgeHost) : Prop where
  node : host.nodeId = nodeId
  reclaimed : host.reclaimed ++ host.vm.toList = List.range host.created
  session : host.session.isSome = host.vm.isSome

namespace JudgeHost.Accounted

variable {nodeId : NodeId} {host : JudgeHost}

theorem reclaimed_of_closed (h : host.Accounted nodeId) (hclosed : host.session.isSome = false) :
    host.vm = none ∧ host.reclaimed = List.range host.created := by
  have hvm : host.vm = none := Option.not_isSome_iff_eq_none.mp (by simp [← h.session, hclosed])
  refine ⟨hvm, ?_⟩
  have hreclaimed := h.reclaimed
  rwa [hvm, Option.toList_none, List.append_nil] at hreclaimed

theorem live_eq (h : host.Accounted nodeId) : host.live = host.vm.toList := by
  have hnodup : (host.reclaimed ++ host.vm.toList).Nodup := h.reclaimed ▸ List.nodup_range
  have hapart := (List.nodup_append.mp hnodup).2.2
  unfold live
  rw [← h.reclaimed, List.filter_append, List.filter_eq_nil_iff.mpr, List.nil_append,
    List.filter_eq_self.mpr]
  · intro vm hvm
    exact decide_eq_true fun hreclaimed => hapart vm hreclaimed vm hvm rfl
  · intro vm hvm
    simpa using hvm

theorem live_launching (h : host.Accounted nodeId) (hclosed : host.session.isSome = false) :
    host.launching.live = [host.created] := by
  obtain ⟨-, hreclaimed⟩ := h.reclaimed_of_closed hclosed
  unfold live launching
  simp [hreclaimed, List.range_succ]

theorem ensureSession (h : host.Accounted nodeId) (boot : Boot) :
    (host.ensureSession boot).2.Accounted nodeId := by
  unfold JudgeHost.ensureSession
  split
  · exact h
  · rename_i hclosed
    obtain ⟨hvm, hreclaimed⟩ := h.reclaimed_of_closed (Bool.not_eq_true _ ▸ hclosed)
    have hnext : host.reclaimed ++ [host.created] = List.range (host.created + 1) := by
      rw [hreclaimed, List.range_succ]
    cases boot with
    | bootstrapFailed | channelUnavailable =>
      refine ⟨h.node, ?_, h.session⟩
      simpa [hvm] using hnext
    | opened exchanges => exact ⟨h.node, hnext, rfl⟩

theorem exchange (h : host.Accounted nodeId) (message : Message) :
    (host.exchange message).2.Accounted nodeId := by
  unfold JudgeHost.exchange
  split
  · exact h
  · rename_i exchanges hsession
    have hsome : true = host.vm.isSome := by rw [← h.session, hsession]; rfl
    split <;> exact ⟨h.node, h.reclaimed, hsome⟩

theorem ensureNegotiated (h : host.Accounted nodeId) :
    host.ensureNegotiated.2.Accounted nodeId := by
  have hnext := h.exchange negotiateMessage
  unfold JudgeHost.ensureNegotiated
  split
  · exact h
  · split <;> rename_i hexchange <;> rw [hexchange] at hnext
    · exact hnext
    · exact ⟨hnext.node, hnext.reclaimed, hnext.session⟩
    · exact hnext
    · exact hnext

theorem teardown (h : host.Accounted nodeId) : host.teardown.Accounted nodeId := by
  refine ⟨h.node, ?_, rfl⟩
  simpa [JudgeHost.teardown] using h.reclaimed

theorem beginAttempt (h : host.Accounted nodeId) : host.beginAttempt.Accounted nodeId := by
  unfold JudgeHost.beginAttempt
  split
  · exact ⟨h.node, h.reclaimed, h.session⟩
  · exact h

variable [Uppercase]

theorem runGuestStage (h : host.Accounted nodeId) (boot : Boot) (stage : StageKind)
    (argv : List String) (wallTimeMs : UInt64) :
    (host.runGuestStage boot stage argv wallTimeMs).2.Accounted nodeId := by
  have hensured := h.ensureSession boot
  unfold JudgeHost.runGuestStage
  split <;> rename_i hsession <;> rw [hsession] at hensured
  · exact hensured
  have hnegotiated := hensured.ensureNegotiated
  split <;> rename_i hagreed <;> rw [hagreed] at hnegotiated
  · exact hnegotiated
  have hasked := hnegotiated.exchange (stageMessage stage argv wallTimeMs)
  split <;> rename_i hexchange <;> rw [hexchange] at hasked
  · exact hasked
  · show JudgeHost.Accounted nodeId (if stage = .run then _ else _)
    split
    · exact ⟨hasked.node, hasked.reclaimed, hasked.session⟩
    · exact hasked
  · exact hasked

theorem stageOutcome (h : host.Accounted nodeId) (boot : Boot) (stage : StageKind) :
    (host.stageOutcome boot stage).2.Accounted nodeId := by
  cases stage with
  | prepare | aggregate => exact h
  | build | run => exact h.runGuestStage boot _ _ _
  | check =>
    simp only [JudgeHost.stageOutcome]
    split <;> exact h

theorem executeStage (h : host.Accounted nodeId) (boot : Boot) (context : StageContext) :
    (host.executeStage boot context).2.Accounted nodeId := by
  have hanswered := h.stageOutcome boot context.stage
  unfold JudgeHost.executeStage
  split
  · exact h
  · split <;> rename_i houtcome <;> rw [houtcome] at hanswered
    · exact hanswered
    · exact hanswered.teardown

theorem runs (boot : Boot) {calls : List StageCall} {state final : JudgeHost}
    (h : state.Accounted nodeId) (hruns : (firecracker boot).Runs calls state final) :
    final.Accounted nodeId := by
  induction calls generalizing state with
  | nil => exact hruns ▸ h
  | cons call calls ih => exact ih (h.executeStage boot call.context) hruns.2

theorem execute (h : host.Accounted nodeId) (boot : Boot) (request : EvaluationRequest) :
    (host.execute boot request).2.Accounted nodeId :=
  (runs boot h.beginAttempt (runs_calls (firecracker boot) request host.beginAttempt)).teardown

theorem call (h : host.Accounted nodeId) (call : ExecutorCall) :
    ((attempts nodeId).next call host).Accounted nodeId := by
  cases call with
  | execute boot request => exact h.execute boot request
  | teardown => exact h.teardown

end JudgeHost.Accounted

theorem JudgeHost.accounted_tryNew (nodeId : NodeId) : (JudgeHost.tryNew nodeId).Accounted nodeId :=
  ⟨rfl, rfl, rfl⟩

section Holding

variable [Uppercase] {nodeId : NodeId} {host : JudgeHost}

theorem attempts_accounted (nodeId : NodeId) (calls : List ExecutorCall) :
    ((attempts nodeId).run calls).Accounted nodeId :=
  Machine.Reachable.induction (JudgeHost.accounted_tryNew nodeId) (fun _ call _ h => h.call call)
    ((attempts nodeId).reachable_run calls)

/-- **One microVM at a time**, wherever in an attempt the executor is. -/
theorem JudgeHost.During.held {boot : Boot} {request : EvaluationRequest} {state : JudgeHost}
    (h : host.During boot request state) (hhost : host.Accounted nodeId) :
    state.live.length ≤ 1 ∧ state.reclaimed.Nodup := by
  have hbetween {state : JudgeHost} (h : host.Between boot request state) :
      state.Accounted nodeId := by
    obtain ⟨calls, -, hruns⟩ := h
    exact .runs boot hhost.beginAttempt hruns
  have hheld {state : JudgeHost} (h : state.Accounted nodeId) :
      state.live.length ≤ 1 ∧ state.reclaimed.Nodup := by
    refine ⟨?_, ?_⟩
    · rw [h.live_eq]
      exact Option.length_toList_le
    · exact (List.nodup_append.mp (h.reclaimed ▸ List.nodup_range)).1
  cases h with
  | stage h => exact hheld (hbetween h)
  | launching h live closed =>
    have hlaunching := (hbetween h).live_launching closed
    exact ⟨by rw [hlaunching]; exact Nat.le_refl 1, (hheld (hbetween h)).2⟩
  | ensured h => exact hheld ((hbetween h).ensureSession boot)
  | negotiated h => exact hheld ((hbetween h).ensureSession boot).ensureNegotiated
  | answered h stage => exact hheld ((hbetween h).stageOutcome boot stage)
  | ended => exact hheld (hhost.execute boot request)

end Holding

/-! ### What an attempt depends on -/

/-- Nothing but the traces tells the executors apart, and which microVM they hold. -/
structure JudgeHost.Alike (host other : JudgeHost) : Prop where
  nodeId : host.nodeId = other.nodeId
  session : host.session = other.session
  negotiated : host.negotiated = other.negotiated
  lastRunExit : host.lastRunExit = other.lastRunExit
  terminated : host.terminated = other.terminated

/-- A step of an executor answers the same from executors that are alike, and leaves them alike. -/
def JudgeHost.Blind {α : Type} (step : JudgeHost → α × JudgeHost) : Prop :=
  ∀ host other, host.Alike other →
    (step host).1 = (step other).1 ∧ (step host).2.Alike (step other).2

namespace JudgeHost

theorem blind_ensureSession (boot : Boot) : Blind (ensureSession boot) := by
  intro host other h
  unfold ensureSession
  rw [h.session]
  split
  · exact ⟨rfl, h⟩
  · cases boot with
    | bootstrapFailed | channelUnavailable => exact ⟨rfl, h.1, h.2, h.3, h.4, h.5⟩
    | opened exchanges => exact ⟨rfl, h.1, rfl, h.3, h.4, h.5⟩

theorem blind_exchange (message : Message) : Blind (exchange message) := by
  intro host other h
  unfold exchange
  rw [h.session]
  split
  · exact ⟨rfl, h⟩
  · split <;> exact ⟨rfl, h.1, rfl, h.3, h.4, h.5⟩

/-- Where two steps end up, they answered the same and left the executors alike. -/
theorem Blind.ends {α : Type} {step : JudgeHost → α × JudgeHost} (hstep : Blind step)
    {host other : JudgeHost} (h : host.Alike other) :
    ∃ answer next next', step host = (answer, next) ∧ step other = (answer, next') ∧
      next.Alike next' := by
  obtain ⟨hanswer, hnext⟩ := hstep host other h
  exact ⟨(step host).1, (step host).2, (step other).2, rfl, Prod.ext hanswer.symm rfl, hnext⟩

theorem blind_ensureNegotiated : Blind ensureNegotiated := by
  intro host other h
  obtain ⟨answer, next, next', hnext, hnext', halike⟩ := (blind_exchange negotiateMessage).ends h
  unfold ensureNegotiated
  rw [h.negotiated, hnext, hnext']
  split
  · exact ⟨rfl, h⟩
  · rcases answer with error | reply
    · exact ⟨rfl, halike⟩
    · cases reply with
      | negotiated supported =>
        cases supported
        · exact ⟨rfl, halike⟩
        · exact ⟨rfl, halike.1, halike.2, rfl, halike.4, halike.5⟩
      | _ => exact ⟨rfl, halike⟩

theorem Alike.teardown {host other : JudgeHost} (h : host.Alike other) :
    host.teardown.Alike other.teardown := ⟨h.1, rfl, h.3, h.4, rfl⟩

variable [Uppercase]

theorem blind_runGuestStage (boot : Boot) (stage : StageKind) (argv : List String)
    (wallTimeMs : UInt64) : Blind (runGuestStage boot stage argv wallTimeMs) := by
  intro host other h
  obtain ⟨opened, next₁, next₁', hnext₁, hnext₁', h₁⟩ := (blind_ensureSession boot).ends h
  obtain ⟨agreed, next₂, next₂', hnext₂, hnext₂', h₂⟩ := blind_ensureNegotiated.ends h₁
  obtain ⟨reply, next₃, next₃', hnext₃, hnext₃', h₃⟩ :=
    (blind_exchange (stageMessage stage argv wallTimeMs)).ends h₂
  unfold runGuestStage
  rw [hnext₁, hnext₁']
  rcases opened with error | ⟨⟩
  · exact ⟨rfl, h₁⟩
  simp only [hnext₂, hnext₂']
  rcases agreed with error | ⟨⟩
  · exact ⟨rfl, h₂⟩
  simp only [hnext₃, hnext₃']
  rcases reply with error | reply
  · exact ⟨rfl, h₃⟩
  cases reply with
  | stageOutput kind exitCode outputDigest outputBytes usage diagnostics =>
    by_cases hrun : stage = .run
    · simp only [if_pos hrun, true_and]
      exact ⟨h₃.1, h₃.2, h₃.3, rfl, h₃.5⟩
    · simp only [if_neg hrun, true_and]
      exact h₃
  | _ => exact ⟨rfl, h₃⟩

theorem blind_stageOutcome (boot : Boot) (stage : StageKind) : Blind (stageOutcome boot stage) := by
  intro host other h
  cases stage with
  | prepare | aggregate => exact ⟨rfl, h⟩
  | build | run => exact blind_runGuestStage boot _ _ _ host other h
  | check =>
    simp only [stageOutcome, h.lastRunExit]
    split <;> exact ⟨rfl, h⟩

theorem blind_executeStage (boot : Boot) (context : StageContext) :
    Blind (executeStage boot context) := by
  intro host other h
  obtain ⟨outcome, next, next', hnext, hnext', halike⟩ :=
    (blind_stageOutcome boot context.stage).ends h
  unfold executeStage
  rw [h.terminated, hnext, hnext']
  split
  · exact ⟨rfl, h⟩
  · rcases outcome with error | outcome
    · exact ⟨rfl, halike.teardown⟩
    · exact ⟨rfl, halike⟩

theorem firecracker_matches (boot : Boot) :
    (firecracker boot).Matches (firecracker boot) Alike where
  kind _ := rfl
  productionEligible _ := rfl
  nodeId h := congrArg some h.nodeId
  supports _ := rfl
  execute context _ _ h := blind_executeStage boot context _ _ h

end JudgeHost

section Isolation

variable [Uppercase]

/-- An attempt starts as on a new executor. -/
theorem beginAttempt_alike (nodeId : NodeId) (calls : List ExecutorCall) :
    ((attempts nodeId).run calls).beginAttempt.Alike (JudgeHost.tryNew nodeId) := by
  have hfresh := (attempts_reached nodeId calls).fresh
  have hnode := (attempts_accounted nodeId calls).beginAttempt.node
  exact ⟨hnode, hfresh.session, hfresh.negotiated, hfresh.lastRunExit, hfresh.terminated⟩

/-- Between two calls neither a session nor a microVM is held. -/
theorem JudgeHost.Reached.closed {host : JudgeHost} (h : host.Reached) :
    host.session = none ∧ host.vm = none := by
  cases h with
  | tryNew nodeId => exact ⟨rfl, rfl⟩
  | execute boot request h => exact ⟨rfl, rfl⟩
  | teardown h => exact ⟨rfl, rfl⟩

/-- **Attempts on one executor are isolated**: what a call answers is what it would answer on a new
executor, at no time does more than one microVM exist, and between two calls there is none, each
having been terminated once. -/
theorem attempts_isolated (nodeId : NodeId) (calls : List ExecutorCall) :
    let host := (attempts nodeId).run calls
    (∀ call, (attempts nodeId).answer call host =
        (attempts nodeId).answer call (.tryNew nodeId)) ∧
      (∀ boot request state, host.During boot request state →
        state.live.length ≤ 1 ∧ state.reclaimed.Nodup) ∧
      host.session = none ∧ host.vm = none ∧ host.reclaimed = List.range host.created := by
  intro host
  have haccounted : host.Accounted nodeId := attempts_accounted nodeId calls
  obtain ⟨hsession, hvm⟩ := (attempts_reached nodeId calls).closed
  refine ⟨fun call => ?_, fun boot request state h => h.held haccounted, hsession, hvm, ?_⟩
  · cases call with
    | execute boot request =>
      have hanswer := ((JudgeHost.firecracker_matches boot).evaluate request
        (beginAttempt_alike nodeId calls)).1
      exact congrArg some hanswer
    | teardown => rfl
  · exact (haccounted.reclaimed_of_closed (by rw [hsession]; rfl)).2

end Isolation
end OpenOJ
