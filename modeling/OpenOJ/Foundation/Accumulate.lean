import Mathlib.Algebra.BigOperators.Group.List.Basic
import OpenOJ.Foundation.Outcome

/-!
# Bounded accumulation

Items are added one by one to an accumulator that cannot hold everything: a step is refused when the
accumulator has no value for the sum. `Adds` is what this asks of an accumulator: its values stand
for some of the elements of an ordered monoid, a step answers the value of the sum where there is
one and refuses otherwise, and where a sum can be held, so can each of its parts.

Then the totals on the way do not matter, and only the whole one does:

* `Adds.foldlM_eq_ok`: the fold over a list has a result exactly when the whole sum can be held, and
  the result stands for that sum;
* `Adds.foldlM_perm`: so the order of the items does not matter either, neither for the total nor
  for whether there is one.
-/

universe u

namespace Accumulate

open Outcome

variable {ε α β M : Type u} [AddCommMonoid M]

/-- A step adds the weight of an item to what an accumulator holds, and does so whenever there is an
accumulator that holds the sum. -/
structure Adds (step : β → α → Except ε β) (held : β → M) (weight : α → M) : Prop where
  injective : Function.Injective held
  step_eq_ok : ∀ b a c, step b a = .ok c ↔ held c = held b + weight a
  parts : ∀ c m n, held c = m + n → ∃ b, held b = m

variable {step : β → α → Except ε β} {held : β → M} {weight : α → M}

/-- **Only the whole total matters.** -/
theorem Adds.foldlM_eq_ok (h : Adds step held weight) {as : List α} {b c : β} :
    as.foldlM step b = .ok c ↔ held c = held b + (as.map weight).sum := by
  induction as generalizing b with
  | nil =>
    rw [List.map_nil, List.sum_nil, add_zero, h.injective.eq_iff, List.foldlM_nil]
    exact ⟨fun hpure => (Except.ok.inj hpure).symm, fun heq => congrArg Except.ok heq.symm⟩
  | cons a as ih =>
    rw [List.foldlM_cons, bind_eq_ok, List.map_cons, List.sum_cons, ← add_assoc]
    refine ⟨fun ⟨next, hstep, hrest⟩ => ?_, fun htotal => ?_⟩
    · rw [ih.mp hrest, (h.step_eq_ok b a next).mp hstep]
    · -- what has been added up after the first item is a part of the total
      obtain ⟨next, hnext⟩ := h.parts c _ _ htotal
      refine ⟨next, (h.step_eq_ok b a next).mpr hnext, ih.mpr ?_⟩
      rw [htotal, hnext]

/-- **The order does not matter**, neither for the total nor for whether there is one. -/
theorem Adds.foldlM_perm (h : Adds step held weight) {as as' : List α} (hperm : as.Perm as')
    {b c : β} : as.foldlM step b = .ok c ↔ as'.foldlM step b = .ok c := by
  rw [h.foldlM_eq_ok, h.foldlM_eq_ok, (hperm.map weight).sum_eq]

end Accumulate
