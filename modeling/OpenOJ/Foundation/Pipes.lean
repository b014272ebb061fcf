import Mathlib.Data.List.Basic
import Mathlib.Logic.Function.Basic
import Mathlib.Tactic.Common

/-!
# Writers and full pipes

A writer takes its time and puts items into pipes of one capacity; where a pipe is full it waits. A
writer is a list of acts (`Act`) and what is in its pipes (`Writer`), `duration` is the time it
takes when it never has to wait, `output` what it has for a pipe altogether, and `advance` is what
becomes of it after some time in which nobody drains the pipes.

* `advance_output`: what is in the pipes and what is still to be written stay the same together, so
  nothing is lost (`Writer.total_advance`);
* `advance_bounded`: no pipe is ever filled beyond its capacity;
* `advance_of_room`: with room for all it writes (`Writer.HasRoom`), a writer is never delayed, and
  comes to its end exactly when its time is over;
* `advance_of_overflow`: without, it never comes to its end, however long one waits.

So a reader that waits for a writer to end, and only then drains its pipes, has a result exactly
when everything fits. Whether there is room does not change while time goes on
(`Writer.hasRoom_advance`), which is what makes a loop that looks again and again as good as a
single look.
-/

universe u v

namespace Pipes

variable {ι : Type u} {α : Type v}

/-- A step of a writer: it is busy for some time, or it puts items into a pipe. -/
inductive Act (ι : Type u) (α : Type v) where
  | busy (time : Nat)
  | put (pipe : ι) (items : List α)

/-- What a writer has still to do, and what is in the pipes. -/
structure Writer (ι : Type u) (α : Type v) where
  acts : List (Act ι α)
  pipes : ι → List α

/-- The time a writer takes when it never has to wait. -/
def duration : List (Act ι α) → Nat
  | [] => 0
  | .busy time :: acts => time + duration acts
  | .put _ _ :: acts => duration acts

/-- What a writer has for a pipe. -/
def output [DecidableEq ι] (p : ι) : List (Act ι α) → List α
  | [] => []
  | .busy _ :: acts => output p acts
  | .put q items :: acts => if p = q then items ++ output p acts else output p acts

variable [DecidableEq ι]

/-- A writer after some time in which nobody drains its pipes. -/
def advance (capacity : Nat) : Nat → List (Act ι α) → (ι → List α) → Writer ι α
  | _, [], pipes => ⟨[], pipes⟩
  | time, .busy needed :: acts, pipes =>
    if needed ≤ time then advance capacity (time - needed) acts pipes
    else ⟨.busy (needed - time) :: acts, pipes⟩
  | time, .put p items :: acts, pipes =>
    let room := capacity - (pipes p).length
    if items.length ≤ room then
      advance capacity time acts (Function.update pipes p (pipes p ++ items))
    else
      -- the pipe is filled, and the writer waits with the rest
      ⟨.put p (items.drop room) :: acts, Function.update pipes p (pipes p ++ items.take room)⟩

def Writer.advance (capacity time : Nat) (w : Writer ι α) : Writer ι α :=
  Pipes.advance capacity time w.acts w.pipes

/-- What a writer puts into a pipe altogether: what is there, and what is to come. -/
def Writer.total (w : Writer ι α) (p : ι) : List α := w.pipes p ++ output p w.acts

/-- **Nothing is lost** while nobody drains the pipes. -/
theorem advance_output (capacity time : Nat) (acts : List (Act ι α)) (pipes : ι → List α) (p : ι) :
    (advance capacity time acts pipes).total p = pipes p ++ output p acts := by
  induction acts generalizing time pipes with
  | nil => rfl
  | cons act acts ih =>
    cases act with
    | busy needed =>
      unfold advance
      split
      · exact ih _ _
      · rfl
    | put q items =>
      unfold advance
      dsimp only
      split
      · rw [ih, output]
        split_ifs with hpq
        · subst hpq
          rw [Function.update_self, List.append_assoc]
        · rw [Function.update_of_ne hpq]
      · rw [Writer.total, output, output]
        dsimp only
        split_ifs with hpq
        · subst hpq
          rw [Function.update_self, List.append_assoc, ← List.append_assoc (List.take _ _),
            List.take_append_drop]
        · rw [Function.update_of_ne hpq]

theorem Writer.total_advance (capacity time : Nat) (w : Writer ι α) :
    (w.advance capacity time).total = w.total :=
  funext fun p => advance_output capacity time w.acts w.pipes p

/-- No pipe is ever filled beyond its capacity. -/
theorem advance_bounded {capacity : Nat} (time : Nat) (acts : List (Act ι α)) {pipes : ι → List α}
    (h : ∀ p, (pipes p).length ≤ capacity) (p : ι) :
    ((advance capacity time acts pipes).pipes p).length ≤ capacity := by
  induction acts generalizing time pipes with
  | nil => exact h p
  | cons act acts ih =>
    have hput (q : ι) (items : List α) (hitems : items.length ≤ capacity - (pipes q).length)
        (p : ι) : (Function.update pipes q (pipes q ++ items) p).length ≤ capacity := by
      by_cases hpq : p = q
      · subst hpq
        have hp := h p
        rw [Function.update_self, List.length_append]
        omega
      · rw [Function.update_of_ne hpq]
        exact h p
    cases act with
    | busy needed =>
      unfold advance
      split
      · exact ih _ h
      · exact h p
    | put q items =>
      unfold advance
      dsimp only
      split
      · exact ih _ (hput q items ‹_›)
      · refine hput q _ ?_ p
        rw [List.length_take]
        omega

/-- There is room for all a writer writes. -/
def Writer.HasRoom (capacity : Nat) (w : Writer ι α) : Prop :=
  ∀ p, (w.total p).length ≤ capacity

theorem Writer.hasRoom_advance {capacity : Nat} (time : Nat) {w : Writer ι α} :
    (w.advance capacity time).HasRoom capacity ↔ w.HasRoom capacity := by
  rw [HasRoom, HasRoom, total_advance]

/-- **With room for everything** a writer is never delayed. -/
theorem advance_of_room {capacity : Nat} (time : Nat) {acts : List (Act ι α)}
    {pipes : ι → List α} (h : Writer.HasRoom capacity ⟨acts, pipes⟩) :
    duration (advance capacity time acts pipes).acts = duration acts - time ∧
      ((advance capacity time acts pipes).acts = [] ↔ duration acts ≤ time) := by
  induction acts generalizing time pipes with
  | nil => simp [advance, duration]
  | cons act acts ih =>
    cases act with
    | busy needed =>
      unfold advance
      split
      · obtain ⟨hduration, hend⟩ := @ih (time - needed) pipes h
        rw [hduration, hend, duration]
        omega
      · simp only [duration, List.cons_ne_nil, false_iff]
        omega
    | put q items =>
      have hq : (pipes q ++ (items ++ output q acts)).length ≤ capacity := by
        have hq := h q
        rwa [Writer.total, output, if_pos rfl] at hq
      simp only [List.length_append] at hq
      unfold advance
      dsimp only
      rw [if_pos (by omega)]
      refine ih time fun p => ?_
      have hp := h p
      rw [Writer.total, output] at hp
      dsimp only [Writer.total]
      split_ifs at hp with hpq
      · subst hpq
        rwa [Function.update_self, List.append_assoc]
      · rwa [Function.update_of_ne hpq]

/-- **Without room** a writer never comes to its end. -/
theorem advance_of_overflow {capacity : Nat} (time : Nat) {w : Writer ι α}
    (hbounded : ∀ p, (w.pipes p).length ≤ capacity) (h : ¬w.HasRoom capacity) :
    (w.advance capacity time).acts ≠ [] := by
  intro hend
  refine h fun p => ?_
  have htotal := congrFun (w.total_advance capacity time) p
  rw [Writer.total, hend, output, List.append_nil] at htotal
  rw [← htotal]
  exact advance_bounded time w.acts hbounded p

end Pipes
