import OpenOJ.Foundation.Outcome

/-!
# The lifecycle of a microVM

Phases (`VmPhase`), and the methods that move between them: `Lifecycle.launch`,
`Lifecycle.configuring`, `Lifecycle.start` and `Lifecycle.running` in this order,
`Lifecycle.failWith` from anywhere, and `Lifecycle.teardown` and `Lifecycle.reclaimed` to the end.
The launch asks the table of transitions (`Lifecycle.allowed`), the steps after it compare the phase
themselves, and a failure, which has its reason (`TeardownReason`), compares nothing.

* `launch_eq_ok`, `launch_eq_error`: a launch is the first thing that happens;
* `advance_eq_ok`: every other step is taken exactly from the phase before it;
* `exists_teardown`: a teardown is refused to a terminated lifecycle only.

The methods alone do not make a terminated lifecycle stay what it is: failing leaves it, and it is
for the owner of the lifecycle not to.
-/

namespace OpenOJ.Firecracker

open Outcome

/-- `VmPhase`. -/
inductive VmPhase where
  | idle
  | launching
  | configuring
  | started
  | running
  | terminating
  | terminated
  | failed
  deriving DecidableEq

/-- `VmPhase::is_terminal`. -/
def VmPhase.isTerminal (phase : VmPhase) : Bool := phase = .terminated || phase = .failed

/-- `VmPhase::needs_teardown`. -/
def VmPhase.needsTeardown : VmPhase → Bool
  | .launching | .configuring | .started | .running | .terminating | .failed => true
  | .idle | .terminated => false

theorem VmPhase.needsTeardown_iff {phase : VmPhase} :
    phase.needsTeardown ↔ phase ≠ .idle ∧ phase ≠ .terminated := by
  cases phase <;> decide

/-- `VmPhase::can_communicate`. -/
def VmPhase.canCommunicate (phase : VmPhase) : Bool := phase = .started || phase = .running

/-- `Display` for `VmPhase`. -/
def VmPhase.display : VmPhase → String
  | .idle => "idle"
  | .launching => "launching"
  | .configuring => "configuring"
  | .started => "started"
  | .running => "running"
  | .terminating => "terminating"
  | .terminated => "terminated"
  | .failed => "failed"

/-- `TeardownReason`. -/
inductive TeardownReason where
  | unexpectedExit
  | controlApi
  | guestStage
  | cancelled
  | resourceLimit
  deriving DecidableEq

/-- `Lifecycle`. -/
structure Lifecycle where
  phase : VmPhase
  teardowns : Nat
  reason : Option TeardownReason
  deriving DecidableEq

namespace Lifecycle

/-- `Lifecycle::new`. -/
def new : Lifecycle where
  phase := .idle
  teardowns := 0
  reason := none

/-- `ALLOWED`. -/
def allowed : List (VmPhase × VmPhase) :=
  [(.idle, .launching), (.launching, .configuring), (.configuring, .started), (.started, .running),
    (.running, .terminating), (.started, .terminating), (.configuring, .terminating),
    (.launching, .terminating)]

/-- `Lifecycle::transition`. -/
def transition (target : VmPhase) (lifecycle : Lifecycle) : Except VmPhase Lifecycle := do
  refuseIf ((lifecycle.phase, target) ∉ allowed) lifecycle.phase
  return { lifecycle with phase := target }

/-- `Lifecycle::launch`. -/
def launch (lifecycle : Lifecycle) : Except VmPhase Lifecycle := lifecycle.transition .launching

/-- A step from one phase to the next. -/
def advance (source target : VmPhase) (lifecycle : Lifecycle) : Except VmPhase Lifecycle := do
  refuseIf (lifecycle.phase ≠ source) lifecycle.phase
  return { lifecycle with phase := target }

/-- `Lifecycle::configuring`. -/
def configuring (lifecycle : Lifecycle) : Except VmPhase Lifecycle :=
  lifecycle.advance .launching .configuring

/-- `Lifecycle::start`. -/
def start (lifecycle : Lifecycle) : Except VmPhase Lifecycle :=
  lifecycle.advance .configuring .started

/-- `Lifecycle::running`. -/
def running (lifecycle : Lifecycle) : Except VmPhase Lifecycle :=
  lifecycle.advance .started .running

/-- `Lifecycle::fail_with`. -/
def failWith (reason : TeardownReason) (lifecycle : Lifecycle) : Lifecycle :=
  { lifecycle with phase := .failed, reason := some reason }

/-- `Lifecycle::teardown`. -/
def teardown (lifecycle : Lifecycle) : Except VmPhase Lifecycle :=
  match lifecycle.phase with
  | .idle => .ok { lifecycle with teardowns := lifecycle.teardowns + 1, phase := .terminated }
  | .launching | .configuring | .started | .running | .failed =>
    .ok { lifecycle with teardowns := lifecycle.teardowns + 1, phase := .terminating }
  | .terminating => .ok { lifecycle with teardowns := lifecycle.teardowns + 1 }
  | .terminated => .error .terminated

/-- `Lifecycle::reclaimed`. -/
def reclaimed (lifecycle : Lifecycle) : Lifecycle := { lifecycle with phase := .terminated }

variable {lifecycle next : Lifecycle}

/-- **A launch** is the first thing that happens. -/
theorem launch_eq_ok : lifecycle.launch = .ok next ↔
    lifecycle.phase = .idle ∧ next = { lifecycle with phase := .launching } := by
  have hallowed : (lifecycle.phase, VmPhase.launching) ∈ allowed ↔ lifecycle.phase = .idle := by
    cases lifecycle.phase <;> decide
  rw [launch, transition, bind_eq_ok]
  simp only [refuseIf_eq_ok, not_not, hallowed, exists_const, pure, Except.pure, Except.ok.injEq,
    @eq_comm Lifecycle]

theorem launch_eq_error (h : lifecycle.phase ≠ .idle) :
    lifecycle.launch = .error lifecycle.phase := by
  have hallowed : (lifecycle.phase, VmPhase.launching) ∉ allowed := by
    revert h
    cases lifecycle.phase <;> decide
  rw [launch, transition, refuseIf_pos hallowed]
  rfl

theorem advance_eq_ok {source target : VmPhase} : lifecycle.advance source target = .ok next ↔
    lifecycle.phase = source ∧ next = { lifecycle with phase := target } := by
  rw [advance, bind_eq_ok]
  simp only [refuseIf_eq_ok, not_not, exists_const, pure, Except.pure, Except.ok.injEq,
    @eq_comm Lifecycle]

/-- **A teardown** is refused to a terminated lifecycle only. -/
theorem exists_teardown (h : lifecycle.phase ≠ .terminated) :
    ∃ next, lifecycle.teardown = .ok next := by
  unfold teardown
  cases hphase : lifecycle.phase with
  | terminated => exact absurd hphase h
  | _ => exact ⟨_, rfl⟩

end Lifecycle
end OpenOJ.Firecracker
