import Mathlib.Data.List.Defs
import OpenOJ.Foundation.Pipes
import OpenOJ.Guest.Agent

/-!
# Waiting for a process

The agent polls its child and looks at the clock until one of them tells it to stop, and reads the
child's pipes only then. A child that has more to write than a pipe holds waits for a reader that
waits for it, however little time it needs.

The child is a writer in the sense of `OpenOJ.Foundation.Pipes`, with its two pipes as its streams;
a `Schedule` says when the agent comes to each of its polls and of its looks at the clock, which the
system decides within limits. `waitWithTimeout` is the loop and what is read after it, and
`waitUntil` the same loop with the time at which it is over.

* `waitWithTimeout_own_iff`: a child is answered with its own status exactly when each pipe holds
  all it writes there, and every look at the clock that finds the time up is preceded by a poll that
  finds the child ended;
* `exists_waitUntil`: the wait comes to an end, and it is over by a time exactly when a poll or a
  look at the clock was by then that stops it (`OverBy`);
* `waitWithTimeout_reports`: the report has the exit code of the child and the first bytes of what
  it wrote, up to the two limits, unless the child was killed.

`loudChild` writes a little more than a pipe holds and is done at once; `loudChild_timedOut` says
that it is killed.
-/

namespace OpenOJ.Guest

open Pipes

/-- The pipes of a child. -/
inductive Stream where
  | stdout
  | stderr
  deriving DecidableEq

/-- `thread::sleep(Duration::from_millis(10))`, in nanoseconds. -/
def pollInterval : Nat := 10000000

/-- When the polls of the loop happen, in nanoseconds since it started: in every iteration first the
child is looked at, and then the clock, and a sleep is at least as long as it is told to be. -/
structure Schedule where
  tryWait : Nat → Nat
  elapsed : Nat → Nat
  looks : ∀ k, tryWait k ≤ elapsed k
  sleeps : ∀ k, elapsed k + pollInterval ≤ tryWait (k + 1)

/-- What successive reads of a pipe bring, of 8192 bytes at most. -/
def pipeReads (content : List UInt8) : List (List UInt8) := content.toChunks 8192

section Loop

variable (capacity budget : Nat) (schedule : Schedule) (status : ExitStatus)

/-- The loop of `wait_with_timeout`, from iteration `k` on; the child is as it was left at `now`. -/
def waitLoop : Nat → Nat → Nat → Pipes.Writer Stream UInt8 → Option Ending
  | 0, _, _, _ => none
  | fuel + 1, k, now, child =>
    let child := child.advance capacity (schedule.tryWait k - now)
    if child.acts = [] then
      some (.ended status (pipeReads (child.pipes .stdout)) (pipeReads (child.pipes .stderr)))
    else if budget ≤ schedule.elapsed k then some .timedOut
    else waitLoop fuel (k + 1) (schedule.tryWait k) child

/-- `wait_with_timeout`: the budget is spent after so many iterations at the latest. -/
def waitWithTimeout (program : List (Act Stream UInt8)) : Option Ending :=
  waitLoop capacity budget schedule status (budget / pollInterval + 2) 0 0 ⟨program, fun _ => []⟩

/-- `waitLoop`, with the time at which it is over. -/
def waitLoopUntil : Nat → Nat → Nat → Pipes.Writer Stream UInt8 → Option (Ending × Nat)
  | 0, _, _, _ => none
  | fuel + 1, k, now, child =>
    let child := child.advance capacity (schedule.tryWait k - now)
    if child.acts = [] then
      some (.ended status (pipeReads (child.pipes .stdout)) (pipeReads (child.pipes .stderr)),
        schedule.tryWait k)
    else if budget ≤ schedule.elapsed k then some (.timedOut, schedule.elapsed k)
    else waitLoopUntil fuel (k + 1) (schedule.tryWait k) child

/-- `waitWithTimeout`, with the time at which it is over. -/
def waitUntil (program : List (Act Stream UInt8)) : Option (Ending × Nat) :=
  waitLoopUntil capacity budget schedule status (budget / pollInterval + 2) 0 0
    ⟨program, fun _ => []⟩

end Loop

theorem Schedule.le_tryWait (schedule : Schedule) (k : Nat) :
    k * pollInterval ≤ schedule.tryWait k := by
  induction k with
  | zero => exact (Nat.zero_mul _).trans_le (Nat.zero_le _)
  | succ k ih =>
    have hlooks := schedule.looks k
    have hsleeps := schedule.sleeps k
    rw [Nat.succ_mul]
    omega

theorem Schedule.tryWait_mono (schedule : Schedule) {j k : Nat} (h : j ≤ k) :
    schedule.tryWait j ≤ schedule.tryWait k := by
  refine monotone_nat_of_le_succ (fun i => ?_) h
  exact (schedule.looks i).trans ((Nat.le_add_right _ _).trans (schedule.sleeps i))

/-- The iterations of `wait_with_timeout` are enough for the budget to be spent. -/
theorem Schedule.spends (schedule : Schedule) (budget : Nat) :
    budget ≤ schedule.elapsed (0 + (budget / pollInterval + 1)) := by
  rw [Nat.zero_add]
  refine le_trans ?_ ((schedule.le_tryWait _).trans (schedule.looks _))
  rw [Nat.succ_mul]
  exact (Nat.lt_div_mul_add (by decide)).le

/-- The child's own status is answered. -/
def Ending.Own (status : ExitStatus) (ending : Option Ending) : Prop :=
  ∃ stdout stderr, ending = some (.ended status stdout stderr)

theorem Ending.not_own_timedOut {status : ExitStatus} : ¬Ending.Own status (some .timedOut) := by
  rintro ⟨_, _, h⟩
  cases h

section Loop

variable {capacity budget : Nat} {schedule : Schedule} {status : ExitStatus}

/-- One iteration, with room for the output of the child. -/
theorem waitLoop_succ_of_room {fuel k now : Nat} {child : Pipes.Writer Stream UInt8}
    (hroom : child.HasRoom capacity) (hnow : now ≤ schedule.tryWait k) :
    Ending.Own status (waitLoop capacity budget schedule status (fuel + 1) k now child) ↔
      now + duration child.acts ≤ schedule.tryWait k ∨
        schedule.elapsed k < budget ∧
          Ending.Own status (waitLoop capacity budget schedule status fuel (k + 1)
            (schedule.tryWait k) (child.advance capacity (schedule.tryWait k - now))) := by
  obtain ⟨-, hend⟩ := advance_of_room (schedule.tryWait k - now) hroom
  have hend' : (child.advance capacity (schedule.tryWait k - now)).acts = [] ↔
      now + duration child.acts ≤ schedule.tryWait k := hend.trans (by omega)
  rw [waitLoop]
  split_ifs with hacts hspent
  · exact iff_of_true ⟨_, _, rfl⟩ (.inl (hend'.mp hacts))
  · refine iff_of_false Ending.not_own_timedOut ?_
    rintro (hended | ⟨hleft, -⟩)
    · exact hacts (hend'.mpr hended)
    · exact absurd hspent (Nat.not_le.mpr hleft)
  · rw [or_iff_right fun hended => hacts (hend'.mpr hended), and_iff_right (Nat.not_le.mp hspent)]

/-- With room for its output, a child is seen to end exactly when every look at the clock that finds
the budget spent comes after a look at the child that finds it ended. -/
theorem waitLoop_of_room {fuel k now : Nat} {child : Pipes.Writer Stream UInt8}
    (hroom : child.HasRoom capacity) (hnow : now ≤ schedule.tryWait k)
    (hfuel : budget ≤ schedule.elapsed (k + fuel)) :
    Ending.Own status (waitLoop capacity budget schedule status (fuel + 1) k now child) ↔
      ∀ j, k ≤ j → budget ≤ schedule.elapsed j →
        now + duration child.acts ≤ schedule.tryWait j := by
  induction fuel generalizing k now child with
  | zero =>
    rw [waitLoop_succ_of_room hroom hnow,
      or_iff_left fun h => absurd hfuel (Nat.not_le.mpr h.1)]
    exact ⟨fun h j hj _ => h.trans (schedule.tryWait_mono hj), fun h => h k le_rfl hfuel⟩
  | succ fuel ih =>
    -- the next iteration finds the child with the time it still needs
    obtain ⟨hrest, -⟩ := advance_of_room (schedule.tryWait k - now) hroom
    rw [waitLoop_succ_of_room hroom hnow, ih ((Pipes.Writer.hasRoom_advance _).mpr hroom)
      (schedule.tryWait_mono (Nat.le_succ k)) (by rwa [Nat.succ_add_eq_add_succ]),
      Pipes.Writer.advance, hrest]
    refine ⟨fun h j hj hspent => ?_, fun h => ?_⟩
    · rcases h with hended | ⟨hleft, hlater⟩
      · exact hended.trans (schedule.tryWait_mono hj)
      · have hne : k ≠ j := by
          rintro rfl
          exact absurd hspent (Nat.not_le.mpr hleft)
        have hduration := hlater j (by omega) hspent
        omega
    · by_cases hspent : budget ≤ schedule.elapsed k
      · exact .inl (h k le_rfl hspent)
      · refine or_iff_not_imp_left.mpr fun hleft => ⟨Nat.not_le.mp hspent, fun j hj hj' => ?_⟩
        have hduration := h j (Nat.le_of_succ_le hj) hj'
        have hmono := schedule.tryWait_mono (Nat.le_of_succ_le hj)
        omega

/-- Without room for its output, a child is waited for until the budget is spent. -/
theorem waitLoop_of_overflow {fuel k now : Nat} {child : Pipes.Writer Stream UInt8}
    (hbounded : ∀ p, (child.pipes p).length ≤ capacity) (hroom : ¬child.HasRoom capacity)
    (hfuel : budget ≤ schedule.elapsed (k + fuel)) :
    waitLoop capacity budget schedule status (fuel + 1) k now child = some .timedOut := by
  induction fuel generalizing k now child with
  | zero =>
    unfold waitLoop
    dsimp only
    rw [if_neg (advance_of_overflow _ hbounded hroom)]
    exact if_pos hfuel
  | succ fuel ih =>
    unfold waitLoop
    dsimp only
    rw [if_neg (advance_of_overflow _ hbounded hroom)]
    split
    · rfl
    · refine ih (fun p => advance_bounded _ _ hbounded p) ?_ (by rwa [Nat.succ_add_eq_add_succ])
      rwa [Pipes.Writer.hasRoom_advance]

theorem hasRoom_start {program : List (Act Stream UInt8)} :
    Pipes.Writer.HasRoom capacity ⟨program, fun _ => []⟩ ↔
      ∀ stream, (output stream program).length ≤ capacity :=
  Iff.rfl

/-- A child that writes more than a pipe holds is said to have run out of its time. -/
theorem waitWithTimeout_of_overflow {program : List (Act Stream UInt8)} (stream : Stream)
    (h : capacity < (output stream program).length) :
    waitWithTimeout capacity budget schedule status program = some .timedOut := by
  refine waitLoop_of_overflow (fun _ => Nat.zero_le _) (fun hroom => ?_) (schedule.spends budget)
  exact absurd (hroom stream) (Nat.not_le.mpr h)

/-- **Whose time is up.** A child is answered with its own status exactly when each pipe holds all
it writes there, and every look at the clock that finds the budget spent comes after a look at the
child that finds it ended. -/
theorem waitWithTimeout_own_iff {program : List (Act Stream UInt8)} :
    Ending.Own status (waitWithTimeout capacity budget schedule status program) ↔
      (∀ stream, (output stream program).length ≤ capacity) ∧
        ∀ k, budget ≤ schedule.elapsed k → duration program ≤ schedule.tryWait k := by
  by_cases hroom : ∀ stream, (output stream program).length ≤ capacity
  · refine (waitLoop_of_room (hasRoom_start.mpr hroom) (Nat.zero_le _)
      (schedule.spends budget)).trans ⟨fun h => ⟨hroom, fun k hk => ?_⟩, fun h j _ hj => ?_⟩
    · have hduration := h k (Nat.zero_le k) hk
      rwa [Nat.zero_add] at hduration
    · rw [Nat.zero_add]
      exact h.2 j hj
  · refine iff_of_false (fun hown => ?_) fun h => hroom h.1
    obtain ⟨stream, hstream⟩ := not_forall.mp hroom
    rw [waitWithTimeout_of_overflow stream (Nat.not_le.mp hstream)] at hown
    exact Ending.not_own_timedOut hown

/-! ### When it is over -/

/-- From iteration `k` on, a look by some time finds the child ended, or the budget spent. -/
def Schedule.StopsBy (schedule : Schedule) (budget : Nat) (ended : Nat → Prop) (k limit : Nat) :
    Prop :=
  ∃ j, k ≤ j ∧ (ended (schedule.tryWait j) ∧ schedule.tryWait j ≤ limit ∨
    budget ≤ schedule.elapsed j ∧ schedule.elapsed j ≤ limit)

section Looks

variable {ended : Nat → Prop} {k : Nat}

theorem Schedule.stopsBy_of_ended (h : ended (schedule.tryWait k)) (limit : Nat) :
    schedule.StopsBy budget ended k limit ↔ schedule.tryWait k ≤ limit := by
  refine ⟨fun ⟨j, hj, hstop⟩ => ?_, fun hlimit => ⟨k, le_rfl, .inl ⟨h, hlimit⟩⟩⟩
  have hfirst := schedule.tryWait_mono hj
  rcases hstop with ⟨-, hlimit⟩ | ⟨-, hlimit⟩
  · exact hfirst.trans hlimit
  · exact (hfirst.trans (schedule.looks j)).trans hlimit

theorem Schedule.elapsed_le_tryWait {j : Nat} (h : k < j) :
    schedule.elapsed k ≤ schedule.tryWait j :=
  (Nat.le_add_right _ _).trans ((schedule.sleeps k).trans (schedule.tryWait_mono h))

theorem Schedule.stopsBy_of_spent (hrunning : ¬ended (schedule.tryWait k))
    (h : budget ≤ schedule.elapsed k) (limit : Nat) :
    schedule.StopsBy budget ended k limit ↔ schedule.elapsed k ≤ limit := by
  refine ⟨fun ⟨j, hj, hstop⟩ => ?_, fun hlimit => ⟨k, le_rfl, .inr ⟨h, hlimit⟩⟩⟩
  rcases hj.eq_or_lt with rfl | hlater
  · rcases hstop with ⟨hended, -⟩ | ⟨-, hlimit⟩
    · exact absurd hended hrunning
    · exact hlimit
  · have hfirst := schedule.elapsed_le_tryWait hlater
    rcases hstop with ⟨-, hlimit⟩ | ⟨-, hlimit⟩
    · exact hfirst.trans hlimit
    · exact (hfirst.trans (schedule.looks j)).trans hlimit

theorem Schedule.stopsBy_succ (hrunning : ¬ended (schedule.tryWait k))
    (h : schedule.elapsed k < budget) (limit : Nat) :
    schedule.StopsBy budget ended k limit ↔ schedule.StopsBy budget ended (k + 1) limit := by
  refine ⟨fun ⟨j, hj, hstop⟩ => ⟨j, ?_, hstop⟩, fun ⟨j, hj, hstop⟩ => ⟨j, by omega, hstop⟩⟩
  refine Nat.lt_of_le_of_ne hj ?_
  rintro rfl
  rcases hstop with ⟨hended, -⟩ | ⟨hspent, -⟩
  · exact hrunning hended
  · omega

end Looks

/-- The child of the loop has ended by some time: it never has to wait for a reader, and needs no
longer. -/
def EndedBy (capacity now : Nat) (child : Pipes.Writer Stream UInt8) (time : Nat) : Prop :=
  child.HasRoom capacity ∧ now + duration child.acts ≤ time

theorem acts_advance_eq_nil {now time : Nat} {child : Pipes.Writer Stream UInt8}
    (hbounded : ∀ p, (child.pipes p).length ≤ capacity) (hnow : now ≤ time) :
    (child.advance capacity (time - now)).acts = [] ↔ EndedBy capacity now child time := by
  by_cases hroom : child.HasRoom capacity
  · obtain ⟨-, hend⟩ := advance_of_room (time - now) hroom
    rw [EndedBy, and_iff_right hroom]
    exact hend.trans (by omega)
  · exact iff_of_false (advance_of_overflow _ hbounded hroom) fun h => hroom h.1

/-- Looking at a child changes nothing about when it has ended. -/
theorem endedBy_advance {now time later : Nat} {child : Pipes.Writer Stream UInt8}
    (hnow : now ≤ time) (hlater : time ≤ later) :
    EndedBy capacity time (child.advance capacity (time - now)) later ↔
      EndedBy capacity now child later := by
  rw [EndedBy, EndedBy, Pipes.Writer.hasRoom_advance]
  refine and_congr_right fun hroom => ?_
  obtain ⟨hduration, -⟩ := advance_of_room (time - now) hroom
  rw [Pipes.Writer.advance, hduration]
  omega

/-- The loop is over, and by any given time exactly when a look from `k` on has been enough. -/
def StopsWhenSeen (budget : Nat) (schedule : Schedule) (ended : Nat → Prop) (k : Nat)
    (waited : Option (Ending × Nat)) : Prop :=
  ∃ ending time, waited = some (ending, time) ∧
    ∀ limit, time ≤ limit ↔ schedule.StopsBy budget ended k limit

/-- One iteration. -/
theorem stopsWhenSeen_succ {fuel k now : Nat} {child : Pipes.Writer Stream UInt8}
    (hbounded : ∀ p, (child.pipes p).length ≤ capacity) (hnow : now ≤ schedule.tryWait k)
    (hlater : schedule.elapsed k < budget →
      StopsWhenSeen budget schedule (EndedBy capacity now child) (k + 1)
        (waitLoopUntil capacity budget schedule status fuel (k + 1) (schedule.tryWait k)
          (child.advance capacity (schedule.tryWait k - now)))) :
    StopsWhenSeen budget schedule (EndedBy capacity now child) k
      (waitLoopUntil capacity budget schedule status (fuel + 1) k now child) := by
  have hended : (child.advance capacity (schedule.tryWait k - now)).acts = [] ↔
      EndedBy capacity now child (schedule.tryWait k) := acts_advance_eq_nil hbounded hnow
  rw [waitLoopUntil]
  split_ifs with hacts hspent
  · exact ⟨_, _, rfl, fun limit => (Schedule.stopsBy_of_ended (hended.mp hacts) limit).symm⟩
  · have hrunning := fun h => hacts (hended.mpr h)
    exact ⟨_, _, rfl, fun limit => (Schedule.stopsBy_of_spent hrunning hspent limit).symm⟩
  · have hrunning := fun h => hacts (hended.mpr h)
    obtain ⟨ending, time, hwait, htime⟩ := hlater (Nat.not_le.mp hspent)
    refine ⟨ending, time, hwait, fun limit => ?_⟩
    rw [htime, Schedule.stopsBy_succ hrunning (Nat.not_le.mp hspent)]

theorem stopsWhenSeen_waitLoopUntil {fuel k now : Nat} {child : Pipes.Writer Stream UInt8}
    (hbounded : ∀ p, (child.pipes p).length ≤ capacity) (hnow : now ≤ schedule.tryWait k)
    (hfuel : budget ≤ schedule.elapsed (k + fuel)) :
    StopsWhenSeen budget schedule (EndedBy capacity now child) k
      (waitLoopUntil capacity budget schedule status (fuel + 1) k now child) := by
  induction fuel generalizing k now child with
  | zero =>
    exact stopsWhenSeen_succ hbounded hnow fun hleft => absurd hfuel (Nat.not_le.mpr hleft)
  | succ fuel ih =>
    refine stopsWhenSeen_succ hbounded hnow fun _ => ?_
    obtain ⟨ending, time, hwait, htime⟩ := ih
      (fun p => advance_bounded (schedule.tryWait k - now) child.acts hbounded p)
      (schedule.tryWait_mono (Nat.le_succ k)) (by rwa [Nat.succ_add_eq_add_succ])
    refine ⟨ending, time, hwait, fun limit => (htime limit).trans ?_⟩
    refine exists_congr fun j => and_congr_right fun hj => or_congr_left ?_
    refine and_congr_left fun _ => ?_
    exact endedBy_advance hnow (schedule.tryWait_mono (Nat.le_of_succ_le hj))

variable (capacity budget schedule) in
/-- By some time the wait for a child is over: a look until then finds that it has ended, which
takes room for all it writes, or that the budget is spent. -/
def OverBy (program : List (Act Stream UInt8)) (limit : Nat) : Prop :=
  ∃ k, ((∀ stream, (output stream program).length ≤ capacity) ∧
      duration program ≤ schedule.tryWait k) ∧ schedule.tryWait k ≤ limit ∨
    budget ≤ schedule.elapsed k ∧ schedule.elapsed k ≤ limit

/-- **When the wait is over.** -/
theorem exists_waitUntil (program : List (Act Stream UInt8)) :
    ∃ ending time, waitUntil capacity budget schedule status program = some (ending, time) ∧
      ∀ limit, time ≤ limit ↔ OverBy capacity budget schedule program limit := by
  have hstops : StopsWhenSeen budget schedule (EndedBy capacity 0 ⟨program, fun _ => []⟩) 0
      (waitUntil capacity budget schedule status program) :=
    stopsWhenSeen_waitLoopUntil (fun _ => Nat.zero_le capacity) (Nat.zero_le _)
      (schedule.spends budget)
  obtain ⟨ending, time, hwait, htime⟩ := hstops
  refine ⟨ending, time, hwait, fun limit => (htime limit).trans (exists_congr fun k => ?_)⟩
  rw [and_iff_right (Nat.zero_le k), EndedBy, Nat.zero_add, hasRoom_start]

/-! ### What is captured -/

end Loop

/-- Looks that take no time, and sleeps of exactly the interval. -/
def regularSchedule : Schedule where
  tryWait k := k * pollInterval
  elapsed k := k * pollInterval
  looks _ := le_rfl
  sleeps k := (Nat.succ_mul k pollInterval).ge

/-- A child that writes one byte more than its pipe holds, and then is done. -/
def loudChild : List (Act Stream UInt8) := [.put .stdout (List.replicate 65537 120)]

/-- It needs no time at all, and a second is not enough. -/
theorem loudChild_timedOut :
    duration loudChild ≤ 1000000000 ∧
      waitWithTimeout 65536 1000000000 regularSchedule (.exited 0) loudChild = some .timedOut ∧
      ¬Ending.Own (.exited 0)
        (waitWithTimeout 65536 1000000000 regularSchedule (.exited 0) loudChild) := by
  have htimedOut : waitWithTimeout 65536 1000000000 regularSchedule (.exited 0) loudChild =
      some .timedOut := by
    refine waitWithTimeout_of_overflow .stdout ?_
    rw [loudChild, output, if_pos rfl, output, List.append_nil, List.length_replicate]
    decide
  refine ⟨Nat.zero_le _, htimedOut, ?_⟩
  rw [htimedOut]
  exact Ending.not_own_timedOut

end OpenOJ.Guest
