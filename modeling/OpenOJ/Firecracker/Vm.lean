import Mathlib
import OpenOJ.Firecracker.Lifecycle
import OpenOJ.Firecracker.Vsock
import OpenOJ.Foundation.Machine
import OpenOJ.Guest.Agent

/-!
# The process of a microVM

A microVM owns one process at most: it is spawned while the microVM is bootstrapped, and reclaimed
when the microVM is terminated. The phase and the handle of the process are changed by different
steps, each of which may fail and leave the rest undone.

* What holds of the phase and of the handle after each step of `bootstrap` and of `terminate` is
  said by triples (`bootstrap_spec`, `terminate_spec`), from which `step_bootstrap` and
  `step_terminate` read off what a call can do.
* Between two calls the microVM is as `VmHost.Owned` says: idle without a process, given up with one
  or none, started with one, or terminated without a handle. Every call keeps this
  (`VmHost.Owned.step`), whatever the surroundings answer.
* `terminate` discards the errors of `kill` and of `wait`, and drops the handle all the same. It
  keeps track of the process exactly when `wait` answers its exit status
  (`VmHost.Owned.held_terminate`).

The main result is `vm_owns_iff`: in a run, every state reached owns its process (`Ownership`)
exactly when every termination that finds a process without an exit status collects it
(`VmHost.Collects`). One process is ever spawned, channels are opened between a bootstrap that
succeeded and the termination, and nothing is launched after that. `forgettingCalls` are two calls
after which a process runs that nobody holds.
-/

namespace OpenOJ.Firecracker

open Outcome Std.Do

set_option mvcgen.warning false

/-- `FirecrackerVm`, of whose configuration only the path of the jailer is used here. -/
structure FirecrackerVm where
  jailerPath : Option String
  lifecycle : Lifecycle
  child : Option Nat

/-- A microVM with the traces it leaves: how many processes were spawned, which are numbered in
turn, and those of which the exit status was collected. -/
structure VmHost extends FirecrackerVm where
  spawned : Nat
  reaped : List Nat

/-- `FirecrackerVm::new`. -/
def VmHost.new (jailerPath : Option String) : VmHost where
  jailerPath
  lifecycle := .new
  child := none
  spawned := 0
  reaped := []

abbrev VmHost.phase (host : VmHost) : VmPhase := host.lifecycle.phase

/-! ### Bootstrapping -/

/-- What an operation of the microVM does to it, also when it fails. -/
abbrev Driving (α : Type) := EStateM FirecrackerError VmHost α

/-- What an iteration of `wait_for_socket` finds: whether the socket is there, and what the child
answers to `try_wait`. -/
structure SocketPoll where
  socketExists : Bool
  tryWait : Except String (Option Guest.ExitStatus)

/-- What the surroundings answer to a `bootstrap`: to spawning the process, to the polls until the
deadline, and to the request for a target. -/
structure Surroundings where
  spawn : Except FirecrackerError Unit
  polls : List SocketPoll
  request : String → Except FirecrackerError ApiResponse

/-- A move of the lifecycle, with the error that stands for its refusal. -/
def advance (move : Lifecycle → Except VmPhase Lifecycle) (message : String) : Driving Unit := do
  match move (← get).lifecycle with
  | .error _ => throw (.io message)
  | .ok lifecycle => modify fun host => { host with lifecycle }

/-- `fail_with`, of the lifecycle. -/
def failWith (reason : TeardownReason) : Driving Unit :=
  modify fun host => { host with lifecycle := host.lifecycle.failWith reason }

/-- `spawn_process`. -/
def spawnProcess (spawn : Except FirecrackerError Unit) : Driving Unit := do
  match spawn with
  | .error error => throw error
  | .ok () =>
    modify fun host => { host with child := some host.spawned, spawned := host.spawned + 1 }

/-- `child_finished`. -/
def childFinished (tryWait : Except String (Option Guest.ExitStatus)) : Driving Bool := do
  match (← get).child, tryWait with
  | none, _ => return true
  | some child, .ok (some _) =>
    modify fun host => { host with reaped := host.reaped ++ [child] }
    return true
  | some _, _ => return false

/-- `wait_for_socket`. -/
def waitForSocket : List SocketPoll → Driving Unit
  | [] => do
    failWith .unexpectedExit
    throw (.io "timed out waiting for the API socket")
  | poll :: polls => do
    if poll.socketExists then return
    if ← childFinished poll.tryWait then
      failWith .unexpectedExit
      throw (.io "firecracker exited before opening the API socket")
    waitForSocket polls

/-- `FirecrackerVm::api`. -/
def api (request : String → Except FirecrackerError ApiResponse) (target : String) :
    Driving Unit := do
  match request target with
  | .ok _ => return
  | .error error =>
    failWith .controlApi
    throw error

/-- `configure`. -/
def configure (request : String → Except FirecrackerError ApiResponse) : Driving Unit := do
  api request "/boot-source"
  api request "/drives/rootfs"
  api request "/machine-config"
  api request "/vsock"

/-- `FirecrackerVm::start`. -/
def start (request : String → Except FirecrackerError ApiResponse) : Driving Unit :=
  api request "/actions"

/-- `bootstrap`. -/
def bootstrap (production : Bool) (surroundings : Surroundings) : Driving Unit := do
  advance Lifecycle.launch "lifecycle cannot launch"
  if production ∧ (← get).jailerPath = none then
    failWith .controlApi
    throw .productionRequiresJailer
  spawnProcess surroundings.spawn
  waitForSocket surroundings.polls
  advance Lifecycle.configuring "lifecycle cannot configure"
  configure surroundings.request
  start surroundings.request
  advance Lifecycle.start "lifecycle cannot start"

/-- `open_guest_channel`. -/
def openGuestChannel {σ : Type} (attempt : Connection σ) (attempts : List (Connection σ))
    (host : VmHost) : Except FirecrackerError (GuestChannel σ) := do
  refuseIf (¬host.phase.canCommunicate) (.io "guest channel requested before start")
  connectUntilReady defaultReadTimeout attempt attempts

/-- `terminate`, by what `kill` and `wait` answer of the process. -/
def terminate (_killed : Except String Unit) (waited : Except String Guest.ExitStatus) :
    Driving Unit := do
  if (← get).phase = .terminated then return
  match (← get).lifecycle.teardown with
  | .error phase => throw (.io s!"cannot tear down from {phase.display}")
  | .ok lifecycle => modify fun host => { host with lifecycle }
  -- the handle is dropped in any case; the errors of `kill` and of `wait` are discarded
  match (← get).child, waited with
  | none, _ => pure ()
  | some _, .error _ => modify fun host => { host with child := none }
  | some child, .ok _ =>
    modify fun host => { host with child := none, reaped := host.reaped ++ [child] }
  modify fun host => { host with lifecycle := host.lifecycle.reclaimed }

/-- The process of which a `wait` collects the exit status. -/
def collected (waited : Except String Guest.ExitStatus) (child : Option Nat) : List Nat :=
  match waited with
  | .ok _ => child.toList
  | .error _ => []

@[simp]
theorem collected_none (waited : Except String Guest.ExitStatus) : collected waited none = [] := by
  cases waited <;> rfl

/-- `drop`: the processes that are killed when a microVM goes out of scope. -/
def VmHost.drop (host : VmHost) : List Nat :=
  if host.phase.needsTeardown then host.child.toList else []

/-! ### What each step leaves -/

/-- No process was spawned. -/
def VmHost.Without (phase : VmPhase) (host : VmHost) : Prop :=
  host.phase = phase ∧ host.child = none ∧ host.spawned = 0

/-- The one process that was spawned is the child. -/
def VmHost.With (phase : VmPhase) (host : VmHost) : Prop :=
  host.phase = phase ∧ host.child = some 0 ∧ host.spawned = 1

/-- Bootstrapping was given up. -/
def VmHost.Broken (host : VmHost) : Prop :=
  ∃ phase, phase.needsTeardown ∧ ¬phase.canCommunicate ∧ (host.Without phase ∨ host.With phase)

/-- The microVM is terminated, and holds no process. -/
def VmHost.Gone (host : VmHost) : Prop :=
  host.phase = .terminated ∧ host.child = none ∧ host.spawned ≤ 1

theorem VmHost.Without.failed {phase : VmPhase} {host : VmHost} (h : host.Without phase)
    (reason : TeardownReason) :
    ({ host with lifecycle := host.lifecycle.failWith reason } : VmHost).Broken :=
  ⟨.failed, rfl, nofun, .inl ⟨rfl, h.2⟩⟩

theorem VmHost.With.failed {phase : VmPhase} {host : VmHost} (h : host.With phase)
    (reason : TeardownReason) :
    ({ host with lifecycle := host.lifecycle.failWith reason } : VmHost).Broken :=
  ⟨.failed, rfl, nofun, .inr ⟨rfl, h.2⟩⟩

section Triples

@[spec]
theorem launch_spec (message : String) :
    ⦃fun host => ⌜host.Without .idle⌝⦄
    advance Lifecycle.launch message
    ⦃post⟨fun _ host => ⌜host.Without .launching⌝, fun _ _ => ⌜False⌝⟩⦄ := by
  mvcgen [advance]
  case vc1.h_1 host hidle phase hrefused =>
    rw [Lifecycle.launch_eq_ok.mpr ⟨hidle.1, rfl⟩] at hrefused
    cases hrefused
  case vc2.h_2 host hidle lifecycle hlaunched _ =>
    obtain ⟨-, rfl⟩ := Lifecycle.launch_eq_ok.mp hlaunched
    exact ⟨rfl, hidle.2⟩

/-- A move from one phase to the next takes place. -/
theorem advance_spec (source target : VmPhase) (message : String) :
    ⦃fun host => ⌜host.With source⌝⦄
    advance (Lifecycle.advance source target) message
    ⦃post⟨fun _ host => ⌜host.With target⌝, fun _ _ => ⌜False⌝⟩⦄ := by
  mvcgen [advance]
  case vc1.h_1 host hsource phase hrefused =>
    rw [Lifecycle.advance_eq_ok.mpr ⟨hsource.1, rfl⟩] at hrefused
    cases hrefused
  case vc2.h_2 host hsource lifecycle hmoved _ =>
    obtain ⟨-, rfl⟩ := Lifecycle.advance_eq_ok.mp hmoved
    exact ⟨rfl, hsource.2⟩

@[spec]
theorem spawnProcess_spec (spawn : Except FirecrackerError Unit) :
    ⦃fun host => ⌜host.Without .launching⌝⦄
    spawnProcess spawn
    ⦃post⟨fun _ host => ⌜host.With .launching⌝, fun _ host => ⌜host.Broken⌝⟩⦄ := by
  mvcgen [spawnProcess]
  -- a process that is not spawned leaves the phase as it is
  case vc1.h_1 host hlaunching => exact ⟨.launching, rfl, nofun, .inl hlaunching⟩
  case vc2.h_2 host hlaunching _ =>
    obtain ⟨hphase, -, hspawned⟩ := hlaunching
    exact ⟨hphase, congrArg some hspawned, congrArg (· + 1) hspawned⟩

@[spec]
theorem childFinished_spec (tryWait : Except String (Option Guest.ExitStatus)) :
    ⦃fun host => ⌜host.With .launching⌝⦄
    childFinished tryWait
    ⦃post⟨fun _ host => ⌜host.With .launching⌝, fun _ _ => ⌜False⌝⟩⦄ := by
  mvcgen [childFinished]

@[spec]
theorem waitForSocket_spec (polls : List SocketPoll) :
    ⦃fun host => ⌜host.With .launching⌝⦄
    waitForSocket polls
    ⦃post⟨fun _ host => ⌜host.With .launching⌝, fun _ host => ⌜host.Broken⌝⟩⦄ := by
  induction polls with
  | nil =>
    mvcgen [waitForSocket, failWith]
    case vc1 host hlaunching _ => exact hlaunching.failed _
  | cons poll polls ih =>
    mvcgen [waitForSocket, failWith, ih]
    case vc3 host hlaunching _ => exact hlaunching.failed _

@[spec]
theorem api_spec (request : String → Except FirecrackerError ApiResponse) (target : String) :
    ⦃fun host => ⌜host.With .configuring⌝⦄
    api request target
    ⦃post⟨fun _ host => ⌜host.With .configuring⌝, fun _ host => ⌜host.Broken⌝⟩⦄ := by
  mvcgen [api, failWith]
  case vc2.h_2 host hconfiguring _ => exact hconfiguring.failed _

/-- **Bootstrapping** an idle microVM starts it with a process, or is given up with one or none. -/
theorem bootstrap_spec (production : Bool) (surroundings : Surroundings) :
    ⦃fun host => ⌜host.Without .idle⌝⦄
    bootstrap production surroundings
    ⦃post⟨fun _ host => ⌜host.With .started⌝, fun _ host => ⌜host.Broken⌝⟩⦄ := by
  mvcgen [bootstrap, failWith, configure, start, Lifecycle.configuring, Lifecycle.start,
    advance_spec]
  case vc2 host hlaunching _ _ _ => exact hlaunching.failed _
  case vc12 => exact id

/-- Any other microVM is left as it is. -/
theorem run_bootstrap_refused {host : VmHost} (h : host.phase ≠ .idle) (production : Bool)
    (surroundings : Surroundings) :
    (bootstrap production surroundings).run host =
      .error (.io "lifecycle cannot launch") host := by
  have hrefused : host.lifecycle.launch = .error host.phase := Lifecycle.launch_eq_error h
  have hadvance : (advance Lifecycle.launch "lifecycle cannot launch").run host =
      .error (.io "lifecycle cannot launch") host := by
    simp [advance, EStateM.run_bind, EStateM.run_get, hrefused]
  rw [bootstrap, EStateM.run_bind, hadvance]

/-- **Terminating** a microVM drops the handle of its process, with or without its exit status. -/
theorem terminate_spec (before : VmHost) (killed : Except String Unit)
    (waited : Except String Guest.ExitStatus) :
    ⦃fun host => ⌜host = before⌝⦄
    terminate killed waited
    ⦃post⟨fun _ host => ⌜host.phase = .terminated ∧ host.spawned = before.spawned ∧
        (before.phase = .terminated → host = before) ∧
        (before.phase ≠ .terminated → host.child = none ∧
          host.reaped = before.reaped ++ collected waited before.child)⌝,
      fun _ _ => ⌜False⌝⟩⦄ := by
  mvcgen [terminate]
  case vc1.isTrue host hsame hterminated =>
    subst hsame
    exact ⟨hterminated, rfl, fun _ => rfl, fun h => absurd hterminated h⟩
  case vc2.isFalse.h_1 host hsame hphase _ phase hrefused =>
    obtain ⟨next, hteardown⟩ := Lifecycle.exists_teardown hphase
    rw [hteardown] at hrefused
    cases hrefused
  case vc3.isFalse.h_2.h_1 host hsame hphase _ _ _ _ _ waited _ hnone _ =>
    subst hsame
    refine ⟨rfl, rfl, fun h => absurd h hphase, fun _ => ⟨hnone, ?_⟩⟩
    change host.child = none at hnone
    rw [hnone, collected_none]
    exact (List.append_nil _).symm
  case vc4.isFalse.h_2.h_2 host hsame hphase _ _ _ _ _ child error _ hchild _ _ =>
    subst hsame
    exact ⟨rfl, rfl, fun h => absurd h hphase, fun _ => ⟨rfl, (List.append_nil _).symm⟩⟩
  case vc5.isFalse.h_2.h_3 host hsame hphase _ _ _ _ _ child status _ hchild _ _ =>
    subst hsame
    refine ⟨rfl, rfl, fun h => absurd h hphase, fun _ => ⟨rfl, ?_⟩⟩
    change host.child = some child at hchild
    rw [hchild]
    rfl

/-- What a triple says of a program it says of its runs. -/
theorem run_of_triple {α : Type} {P : VmHost → Prop} {program : Driving α} {Q : α → VmHost → Prop}
    {E : FirecrackerError → VmHost → Prop}
    (h : ⦃fun host => ⌜P host⌝⦄ program ⦃post⟨fun a host => ⌜Q a host⌝, fun e host => ⌜E e host⌝⟩⦄)
    {host : VmHost} (hhost : P host) :
    (∃ a next, program.run host = .ok a next ∧ Q a next) ∨
      ∃ e next, program.run host = .error e next ∧ E e next := by
  have hwp := h host hhost
  simp only [wp, PredTrans.apply] at hwp
  split at hwp
  case h_1 a next hrun => exact .inl ⟨a, next, hrun, hwp⟩
  case h_2 e next hrun => exact .inr ⟨e, next, hrun, hwp⟩

end Triples

/-! ### Calls -/

/-- A call of a method, with what its surroundings answer. -/
inductive VmCall (σ : Type) where
  | bootstrap (production : Bool) (surroundings : Surroundings)
  | openGuestChannel (attempt : Connection σ) (attempts : List (Connection σ))
  | terminate (killed : Except String Unit) (waited : Except String Guest.ExitStatus)

def VmCall.IsTerminate {σ : Type} : VmCall σ → Prop
  | .terminate _ _ => True
  | _ => False

inductive VmAnswer (σ : Type) where
  | done (result : Except FirecrackerError Unit)
  | channel (result : Except FirecrackerError (GuestChannel σ))

variable {σ : Type}

/-- What comes of a run of an operation. -/
def answered : EStateM.Result FirecrackerError VmHost Unit → VmAnswer σ × VmHost
  | .ok _ host => (.done (.ok ()), host)
  | .error error host => (.done (.error error), host)

def VmHost.step : VmCall σ → VmHost → VmAnswer σ × VmHost
  | .bootstrap production surroundings, host =>
    answered ((Firecracker.bootstrap production surroundings).run host)
  | .openGuestChannel attempt attempts, host =>
    (.channel (Firecracker.openGuestChannel attempt attempts host), host)
  | .terminate killed waited, host => answered ((Firecracker.terminate killed waited).run host)

/-- A microVM, call by call. -/
def vm (σ : Type) (jailerPath : Option String) : Machine VmHost (VmCall σ) (VmAnswer σ) where
  start := .new jailerPath
  step := VmHost.step

variable {host : VmHost}

/-- What a bootstrap can do. -/
theorem step_bootstrap (h : host.Without .idle) (production : Bool) (surroundings : Surroundings) :
    ∃ result next,
      host.step (.bootstrap production surroundings : VmCall σ) = (.done result, next) ∧
      (result = .ok () ∧ next.With .started ∨ (∃ error, result = .error error) ∧ next.Broken) := by
  rcases run_of_triple (bootstrap_spec production surroundings) h with
    ⟨⟨⟩, next, hrun, hstarted⟩ | ⟨error, next, hrun, hbroken⟩
  · exact ⟨.ok (), next, by rw [VmHost.step, hrun, answered], .inl ⟨rfl, hstarted⟩⟩
  · exact ⟨.error error, next, by rw [VmHost.step, hrun, answered], .inr ⟨⟨error, rfl⟩, hbroken⟩⟩

theorem step_bootstrap_refused (h : host.phase ≠ .idle) (production : Bool)
    (surroundings : Surroundings) :
    host.step (.bootstrap production surroundings : VmCall σ) =
      (.done (.error (.io "lifecycle cannot launch")), host) := by
  rw [VmHost.step, run_bootstrap_refused h, answered]

/-- What a termination does. -/
theorem step_terminate (host : VmHost) (killed : Except String Unit)
    (waited : Except String Guest.ExitStatus) :
    ∃ next, host.step (.terminate killed waited : VmCall σ) = (.done (.ok ()), next) ∧
      next.phase = .terminated ∧ next.spawned = host.spawned ∧
      (host.phase = .terminated → next = host) ∧
      (host.phase ≠ .terminated → next.child = none ∧
        next.reaped = host.reaped ++ collected waited host.child) := by
  rcases run_of_triple (terminate_spec host killed waited) rfl with
    ⟨⟨⟩, next, hrun, hnext⟩ | ⟨error, next, hrun, hfalse⟩
  · exact ⟨next, by rw [VmHost.step, hrun, answered], hnext⟩
  · exact hfalse.elim

/-! ### Ownership -/

/-- What holds of a microVM between two calls. -/
def VmHost.Owned (host : VmHost) : Prop :=
  host.Without .idle ∨ host.Broken ∨ host.With .started ∨ host.Gone

theorem VmHost.Owned.gone (h : host.Owned) (hterminated : host.phase = .terminated) :
    host.Gone := by
  rcases h with h | ⟨phase, hneeds, -, h | h⟩ | h | h
  · cases h.1.symm.trans hterminated
  · obtain rfl := h.1.symm.trans hterminated
    cases hneeds
  · obtain rfl := h.1.symm.trans hterminated
    cases hneeds
  · cases h.1.symm.trans hterminated
  · exact h

/-- What was spawned at all is the child, unless the microVM is terminated. -/
theorem VmHost.Owned.child (h : host.Owned) (hphase : host.phase ≠ .terminated) :
    host.child = none ∧ host.spawned = 0 ∨ host.child = some 0 ∧ host.spawned = 1 := by
  rcases h with h | ⟨phase, -, -, h | h⟩ | h | h
  · exact .inl h.2
  · exact .inl h.2
  · exact .inr h.2
  · exact .inr h.2
  · exact absurd h.1 hphase

/-- A process that was spawned is the child, unless the microVM is terminated. -/
theorem VmHost.Owned.child_of_lt (h : host.Owned) (hphase : host.phase ≠ .terminated)
    {process : Nat} (hspawned : process < host.spawned) : host.child = some process := by
  rcases h.child hphase with ⟨-, hcount⟩ | ⟨hchild, hcount⟩
  · exact absurd (hcount ▸ hspawned) (Nat.not_lt_zero process)
  · obtain rfl : process = 0 := Nat.lt_one_iff.mp (hcount ▸ hspawned)
    exact hchild

theorem VmHost.Owned.idle (h : host.Owned) (hidle : host.phase = .idle) : host.Without .idle := by
  rcases h with h | ⟨phase, hneeds, -, h | h⟩ | h | h
  · exact h
  · obtain rfl := h.1.symm.trans hidle
    cases hneeds
  · obtain rfl := h.1.symm.trans hidle
    cases hneeds
  · cases h.1.symm.trans hidle
  · cases h.1.symm.trans hidle

/-- One process at most was spawned. -/
theorem VmHost.Owned.single (h : host.Owned) : host.spawned ≤ 1 := by
  by_cases hphase : host.phase = .terminated
  · exact (h.gone hphase).2.2
  · rcases h.child hphase with ⟨-, hcount⟩ | ⟨-, hcount⟩ <;> omega

/-- **Terminating** leaves no handle of a process. -/
theorem VmHost.Owned.terminate (h : host.Owned) (killed : Except String Unit)
    (waited : Except String Guest.ExitStatus) :
    ∃ next, host.step (.terminate killed waited : VmCall σ) = (.done (.ok ()), next) ∧
      next.Gone := by
  obtain ⟨next, hstep, hterminated, hspawned, hsame, hreaped⟩ :=
    @step_terminate σ host killed waited
  refine ⟨next, hstep, ?_⟩
  by_cases hphase : host.phase = .terminated
  · rw [hsame hphase]
    exact h.gone hphase
  · exact ⟨hterminated, (hreaped hphase).1, hspawned.symm ▸ h.single⟩

/-- **Every call** keeps what holds between calls. -/
theorem VmHost.Owned.step (h : host.Owned) (call : VmCall σ) : (host.step call).2.Owned := by
  cases call with
  | bootstrap production surroundings =>
    by_cases hidle : host.phase = .idle
    · obtain ⟨result, next, hstep, ⟨-, hstarted⟩ | ⟨-, hbroken⟩⟩ :=
        @step_bootstrap σ host (h.idle hidle) production surroundings
      · rw [hstep]
        exact .inr (.inr (.inl hstarted))
      · rw [hstep]
        exact .inr (.inl hbroken)
    · rw [step_bootstrap_refused hidle]
      exact h
  | openGuestChannel attempt attempts => exact h
  | terminate killed waited =>
    obtain ⟨next, hstep, hgone⟩ := @VmHost.Owned.terminate σ host h killed waited
    rw [hstep]
    exact .inr (.inr (.inr hgone))

/-- A terminated microVM is left as it is. -/
theorem VmHost.Gone.step (h : host.Gone) (call : VmCall σ) : (host.step call).2 = host := by
  cases call with
  | bootstrap production surroundings =>
    rw [step_bootstrap_refused (by rw [h.1]; nofun)]
  | openGuestChannel attempt attempts => rfl
  | terminate killed waited =>
    obtain ⟨next, hstep, -, -, hsame, -⟩ := @step_terminate σ host killed waited
    rw [hstep]
    exact hsame h.1

/-! ### Exit statuses -/

/-- A process was spawned, and its exit status was not collected. -/
def VmHost.Unreaped (host : VmHost) (process : Nat) : Prop :=
  process < host.spawned ∧ process ∉ host.reaped

/-- A process without an exit status is still to be reclaimed. -/
def VmHost.Held (host : VmHost) : Prop :=
  ∀ process, host.Unreaped process → host.phase.needsTeardown

/-- The call is no termination that is to collect an exit status and cannot. -/
def VmHost.Collects (host : VmHost) : VmCall σ → Prop
  | .terminate _ waited => (∃ process, host.Unreaped process) → ∃ status, waited = .ok status
  | _ => True

/-- A process without an exit status is in a microVM that has left the idle phase. -/
theorem VmHost.Owned.ne_idle (h : host.Owned) {process : Nat} (hprocess : host.Unreaped process) :
    host.phase ≠ .idle := fun hidle =>
  Nat.not_lt_zero process ((h.idle hidle).2.2 ▸ hprocess.1)

/-- Until a microVM is terminated, its process is to be reclaimed. -/
theorem VmHost.Owned.held (h : host.Owned) (hphase : host.phase ≠ .terminated) : host.Held :=
  fun _ hprocess => VmPhase.needsTeardown_iff.mpr ⟨h.ne_idle hprocess, hphase⟩

/-- A terminated microVM is to have collected every exit status. -/
theorem VmHost.held_terminated (hphase : host.phase = .terminated) :
    host.Held ↔ ∀ process, ¬host.Unreaped process := by
  refine forall_congr' fun process => imp_congr_right fun _ => ?_
  rw [hphase]
  exact ⟨nofun, False.elim⟩

/-- **A termination** keeps track of the process exactly when `wait` answers its exit status. -/
theorem VmHost.Owned.held_terminate (h : host.Owned) (hheld : host.Held)
    (killed : Except String Unit) (waited : Except String Guest.ExitStatus) :
    host.Collects (.terminate killed waited : VmCall σ) ↔
      (host.step (.terminate killed waited : VmCall σ)).2.Held := by
  obtain ⟨next, hstep, hterminated, hspawned, hsame, hreaped⟩ :=
    @step_terminate σ host killed waited
  rw [hstep, VmHost.held_terminated hterminated]
  by_cases hphase : host.phase = .terminated
  · -- nothing is left to collect
    rw [hsame hphase]
    have hnone := (VmHost.held_terminated hphase).mp hheld
    exact iff_of_true (fun ⟨process, hprocess⟩ => absurd hprocess (hnone process)) hnone
  · obtain ⟨-, hreaped⟩ := hreaped hphase
    constructor
    · rintro hcollects process ⟨hlt, hnot⟩
      rw [hreaped, List.mem_append, not_or] at hnot
      rw [hspawned] at hlt
      obtain ⟨status, rfl⟩ := hcollects ⟨process, hlt, hnot.1⟩
      apply hnot.2
      rw [h.child_of_lt hphase hlt]
      exact List.mem_singleton_self process
    · rintro hnone ⟨process, hlt, hnot⟩
      cases waited with
      | ok status => exact ⟨status, rfl⟩
      | error error =>
        refine absurd ⟨hspawned.symm ▸ hlt, ?_⟩ (hnone process)
        rwa [hreaped, collected, List.append_nil]

/-- **Every call** keeps track of the process exactly when it collects what it is to collect. -/
theorem VmHost.Owned.held_step (h : host.Owned) (hheld : host.Held) (call : VmCall σ) :
    host.Collects call ↔ (host.step call).2.Held := by
  cases call with
  | bootstrap production surroundings =>
    refine iff_of_true trivial ?_
    by_cases hidle : host.phase = .idle
    · have howned := h.step (.bootstrap production surroundings : VmCall σ)
      obtain ⟨result, next, hstep, ⟨-, hnext⟩ | ⟨-, phase, hneeds, -, hnext⟩⟩ :=
        @step_bootstrap σ host (h.idle hidle) production surroundings
      · rw [hstep] at howned ⊢
        exact howned.held (by rw [hnext.1]; nofun)
      · rw [hstep]
        intro _ _
        rwa [show next.phase = phase from hnext.elim And.left And.left]
    · rw [step_bootstrap_refused hidle]
      exact hheld
  | openGuestChannel attempt attempts => exact iff_of_true trivial hheld
  | terminate killed waited => exact h.held_terminate hheld killed waited

/-! ### Runs -/

section Runs

variable {jailerPath : Option String}

/-- In these calls, a bootstrap succeeded, and no termination follows it. -/
def BootedSince (jailerPath : Option String) (calls : List (VmCall σ)) : Prop :=
  ∃ before production surroundings after,
    calls = before ++ .bootstrap production surroundings :: after ∧
      (vm σ jailerPath).answer (.bootstrap production surroundings)
        ((vm σ jailerPath).run before) = .done (.ok ()) ∧
      ∀ call ∈ after, ¬call.IsTerminate

/-- How a microVM owns its process after some calls. -/
structure Ownership (jailerPath : Option String) (calls : List (VmCall σ)) (host : VmHost) :
    Prop where
  /-- One process at most is ever spawned. -/
  single : host.spawned ≤ 1
  /-- A process that was not reaped is killed by `drop`, and reaped by a `terminate` whose `wait`
  answers. -/
  reclaimed : ∀ process, host.Unreaped process → host.phase.needsTeardown ∧ process ∈ host.drop ∧
    ∀ killed status,
      process ∈ (host.step (.terminate killed (.ok status) : VmCall σ)).2.reaped
  /-- A channel is opened between a bootstrap that succeeded and the termination. -/
  opened : ∀ attempt attempts (channel : GuestChannel σ),
    openGuestChannel attempt attempts host = .ok channel → BootedSince jailerPath calls
  /-- Terminating succeeds, and nothing is launched any more. -/
  terminated : ∀ killed waited, ∃ next,
    host.step (.terminate killed waited : VmCall σ) = (.done (.ok ()), next) ∧
      next.phase = .terminated ∧ next.child = none ∧
      (∀ killed' waited', next.step (.terminate killed' waited' : VmCall σ) =
        (.done (.ok ()), next)) ∧
      ∀ later : List (VmCall σ), (vm σ jailerPath).runFrom next later = next

theorem owned_start : (vm σ jailerPath).start.Owned := .inl ⟨rfl, rfl, rfl⟩

theorem owned_run (calls : List (VmCall σ)) : ((vm σ jailerPath).run calls).Owned :=
  Machine.run_preserves (fun _ call _ h => h.step call) (Machine.reachable_start _) owned_start
    calls

theorem gone_run (h : host.Gone) (calls : List (VmCall σ)) :
    (vm σ jailerPath).runFrom host calls = host := by
  induction calls with
  | nil => rfl
  | cons call calls ih =>
    rw [Machine.runFrom_cons]
    have hnext : (vm σ jailerPath).next call host = host := h.step call
    rw [hnext, ih]

/-- A microVM that can communicate was booted, and not terminated since. -/
theorem bootedSince_of_canCommunicate (calls : List (VmCall σ))
    (h : ((vm σ jailerPath).run calls).phase.canCommunicate) : BootedSince jailerPath calls := by
  induction calls using List.reverseRecOn with
  | nil => cases h
  | append_singleton calls call ih =>
    have howned : ((vm σ jailerPath).run calls).Owned := owned_run calls
    rw [Machine.run_concat] at h
    -- a call that leaves the microVM as it was, and is no termination
    have hsame (hcall : ¬call.IsTerminate)
        (hnext : (vm σ jailerPath).next call ((vm σ jailerPath).run calls) =
          (vm σ jailerPath).run calls) : BootedSince jailerPath (calls ++ [call]) := by
      rw [hnext] at h
      obtain ⟨before, production, surroundings, after, rfl, hanswer, hafter⟩ := ih h
      refine ⟨before, production, surroundings, after ++ [call], by simp, hanswer, ?_⟩
      intro other hother
      rcases List.mem_append.mp hother with hother | hother
      · exact hafter other hother
      · rwa [List.mem_singleton.mp hother]
    cases call with
    | bootstrap production surroundings =>
      by_cases hidle : ((vm σ jailerPath).run calls).phase = .idle
      · obtain ⟨result, next, hstep, ⟨rfl, -⟩ | ⟨-, phase, -, hcannot, hbroken⟩⟩ :=
          @step_bootstrap σ _ (howned.idle hidle) production surroundings
        · refine ⟨calls, production, surroundings, [], rfl, ?_, by simp⟩
          exact congrArg Prod.fst hstep
        · have hnext : (vm σ jailerPath).next (.bootstrap production surroundings)
              ((vm σ jailerPath).run calls) = next := congrArg Prod.snd hstep
          rw [hnext] at h
          have hphase : next.phase = phase := hbroken.elim And.left And.left
          exact absurd (hphase ▸ h) hcannot
      · exact hsame id (congrArg Prod.snd (step_bootstrap_refused hidle production surroundings))
    | openGuestChannel attempt attempts => exact hsame id rfl
    | terminate killed waited =>
      obtain ⟨next, hstep, hgone⟩ := @VmHost.Owned.terminate σ _ howned killed waited
      have hnext : (vm σ jailerPath).next (.terminate killed waited)
          ((vm σ jailerPath).run calls) = next := congrArg Prod.snd hstep
      rw [hnext, hgone.1] at h
      cases h

/-- After any calls, the microVM owns its process as long as it keeps track of it. -/
theorem ownership_iff_held (calls : List (VmCall σ)) :
    Ownership jailerPath calls ((vm σ jailerPath).run calls) ↔
      ((vm σ jailerPath).run calls).Held := by
  refine ⟨fun h process hprocess => (h.reclaimed process hprocess).1, fun hheld => ?_⟩
  have howned : ((vm σ jailerPath).run calls).Owned := owned_run calls
  refine ⟨howned.single, fun process hprocess => ?_, fun attempt attempts channel hopen => ?_,
    fun killed waited => ?_⟩
  · have hneeds := hheld process hprocess
    have hphase := (VmPhase.needsTeardown_iff.mp hneeds).2
    have hchild := howned.child_of_lt hphase hprocess.1
    refine ⟨hneeds, ?_, fun killed status => ?_⟩
    · rw [VmHost.drop, if_pos hneeds, hchild]
      exact List.mem_singleton_self process
    · obtain ⟨next, hstep, -, -, -, hreaped⟩ := @step_terminate σ _ killed (.ok status)
      rw [hstep, (hreaped hphase).2, collected, hchild]
      exact List.mem_append_right _ (List.mem_singleton_self process)
  · refine bootedSince_of_canCommunicate calls ?_
    rw [openGuestChannel, bind_eq_ok] at hopen
    obtain ⟨⟨⟩, hcan, -⟩ := hopen
    exact not_not.mp (refuseIf_eq_ok.mp hcan)
  · obtain ⟨next, hstep, hgone⟩ := @VmHost.Owned.terminate σ _ howned killed waited
    refine ⟨next, hstep, hgone.1, hgone.2.1, fun killed' waited' => ?_, gone_run hgone⟩
    obtain ⟨again, hagain, -, -, hsame, -⟩ := @step_terminate σ next killed' waited'
    rw [hagain, hsame hgone.1]

/-- **Ownership of the process.** Whatever its surroundings answer, a microVM owns its process after
each of some calls exactly when every termination that finds a process without an exit status
collects it. -/
theorem vm_owns_iff (jailerPath : Option String) (calls : List (VmCall σ)) :
    (vm σ jailerPath).Meets VmHost.Collects (vm σ jailerPath).start calls ↔
      ∀ earlier, earlier <+: calls →
        Ownership jailerPath earlier ((vm σ jailerPath).run earlier) := by
  have hstart : (vm σ jailerPath).start.Held := owned_start.held nofun
  have hexact := Machine.meets_iff_forall_prefix (m := vm σ jailerPath) (P := VmHost.Held)
    (fun _ call h => VmHost.Owned.step h call)
    (fun _ call howned hheld => howned.held_step hheld call) owned_start hstart calls
  rw [hexact]
  exact forall_congr' fun earlier => imp_congr_right fun _ => (ownership_iff_held earlier).symm

/-- A microVM is bootstrapped, and terminated where its process can neither be killed nor be waited
for. -/
def forgettingCalls : List (VmCall σ) :=
  [.bootstrap false ⟨.ok (), [⟨true, .ok none⟩], fun _ => .ok ⟨204, []⟩⟩,
    .terminate (.error "Operation not permitted (os error 1)")
      (.error "No child processes (os error 10)")]

/-- The termination succeeds all the same, and the microVM forgets its process. -/
theorem forgettingCalls_not_owned :
    ((vm Unit none).run forgettingCalls).phase = .terminated ∧
      ((vm Unit none).run forgettingCalls).child = none ∧
      ((vm Unit none).run forgettingCalls).Unreaped 0 ∧
      ¬Ownership none (forgettingCalls (σ := Unit)) ((vm Unit none).run forgettingCalls) := by
  have hunreaped : ((vm Unit none).run forgettingCalls).Unreaped 0 := ⟨by decide, nofun⟩
  exact ⟨rfl, rfl, hunreaped, fun howned => absurd (howned.reclaimed 0 hunreaped).1 nofun⟩

end Runs
end OpenOJ.Firecracker
