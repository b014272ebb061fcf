import OpenOJ.Domain.Result
import OpenOJ.Foundation.Accumulate

/-!
# Usage that is accumulated

The usage of an evaluation is added up stage by stage, and every sum on the way is checked against
the hard limits. A peak of memory is not added but taken as the maximum, so the sum is one in a
monoid that is not a group; the parts of a usage within the limits are within the limits
(`ResourceUsageParts.Bounded.part`), and that is all the argument needs.

* `ResourceUsage.adds_checkedAdd`: checked addition accumulates in the sense of `Adds`, so what is
  known of bounded accumulation holds of it;
* `foldlM_checkedAdd`: a list of usages has a total exactly when its times and its output come to no
  more than their limits, in whatever order the items are added, and the total is then exact;
* `ResourceUsage.add_le_u64Max`: no sum on the way wraps around, so the arithmetic of 64-bit
  counters is that of numbers here.
-/

namespace OpenOJ

open Outcome Accumulate

instance : Add ResourceUsageParts := ⟨ResourceUsageParts.plus⟩

instance : Zero ResourceUsageParts := ⟨⟨0, 0, 0, 0⟩⟩

/-- Usages are added with `plus`, where memory peaks. -/
instance : AddCommMonoid ResourceUsageParts where
  add_assoc := ResourceUsageParts.plus_assoc
  zero_add := ResourceUsageParts.zero_plus
  add_zero := ResourceUsageParts.plus_zero
  add_comm a b := by
    show a.plus b = b.plus a
    simp only [ResourceUsageParts.plus, Nat.add_comm, Nat.max_comm]
  nsmul := nsmulRec

theorem ResourceUsageParts.add_def (a b : ResourceUsageParts) : a + b = a.plus b := rfl

/-- A sum of usages, counter by counter. -/
theorem ResourceUsageParts.sum_eq (usages : List ResourceUsageParts) :
    usages.sum =
      { cpuTimeMs := (usages.map (·.cpuTimeMs)).sum
        wallTimeMs := (usages.map (·.wallTimeMs)).sum
        memoryPeakBytes := (usages.map (·.memoryPeakBytes)).foldr max 0
        outputBytes := (usages.map (·.outputBytes)).sum } := by
  induction usages with
  | nil => rfl
  | cons usage usages ih =>
    rw [List.sum_cons, ih, add_def, plus]
    simp only [List.map_cons, List.sum_cons, List.foldr_cons]

/-- A part of a usage within the limits is within them. -/
theorem ResourceUsageParts.Bounded.part {a b : ResourceUsageParts} (h : (a + b).Bounded) :
    a.Bounded := by
  obtain ⟨hcpu, hwall, hmemory, houtput⟩ := h
  exact ⟨Nat.le_trans (Nat.le_add_right _ _) hcpu, Nat.le_trans (Nat.le_add_right _ _) hwall,
    Nat.le_trans (Nat.le_max_left _ _) hmemory, Nat.le_trans (Nat.le_add_right _ _) houtput⟩

theorem ResourceUsage.bounded (usage : ResourceUsage) : usage.toResourceUsageParts.Bounded :=
  ResourceUsageParts.validate_eq_ok.mp usage.valid

theorem ResourceUsage.adds_checkedAdd :
    Adds ResourceUsage.checkedAdd toResourceUsageParts toResourceUsageParts where
  injective a b h := by
    obtain ⟨parts, hvalid⟩ := a
    obtain rfl : parts = b.toResourceUsageParts := h
    rfl
  step_eq_ok _ _ _ := checkedAdd_eq_ok
  parts c a b h := by
    have hpart : a.Bounded := (h ▸ c.bounded).part
    exact ⟨⟨a, ResourceUsageParts.validate_eq_ok.mpr hpart⟩, rfl⟩

/-- What usages come to together is within the limits as soon as the times and the output are: the
peak of usages that are each within the limit is within it. -/
theorem ResourceUsageParts.bounded_sum {usages : List ResourceUsage} :
    (usages.map ResourceUsage.toResourceUsageParts).sum.Bounded ↔
      (usages.map (·.cpuTimeMs)).sum ≤ maxCpuTimeMs ∧
        (usages.map (·.wallTimeMs)).sum ≤ maxWallTimeMs ∧
        (usages.map (·.outputBytes)).sum ≤ maxOutputBytes := by
  have hpeak : (usages.map (·.memoryPeakBytes)).foldr max 0 ≤ maxMemoryBytes := by
    induction usages with
    | nil => exact Nat.zero_le _
    | cons usage usages ih => exact Nat.max_le.mpr ⟨usage.bounded.memoryPeakBytes, ih⟩
  rw [sum_eq]
  simp only [List.map_map, Function.comp_def]
  refine ⟨fun h => ⟨h.cpuTimeMs, h.wallTimeMs, h.outputBytes⟩, ?_⟩
  rintro ⟨hcpu, hwall, houtput⟩
  exact ⟨hcpu, hwall, hpeak, houtput⟩

/-- No counter of two usages wraps when they are added as 64-bit values. -/
theorem ResourceUsage.add_le_u64Max (usage other : ResourceUsage) :
    usage.cpuTimeMs + other.cpuTimeMs ≤ u64Max ∧ usage.wallTimeMs + other.wallTimeMs ≤ u64Max ∧
      usage.outputBytes + other.outputBytes ≤ u64Max := by
  have hcpu : maxCpuTimeMs + maxCpuTimeMs ≤ u64Max := by decide
  have hwall : maxWallTimeMs + maxWallTimeMs ≤ u64Max := by decide
  have houtput : maxOutputBytes + maxOutputBytes ≤ u64Max := by decide
  refine ⟨Nat.le_trans (Nat.add_le_add ?_ ?_) hcpu, Nat.le_trans (Nat.add_le_add ?_ ?_) hwall,
    Nat.le_trans (Nat.add_le_add ?_ ?_) houtput⟩
  · exact usage.bounded.cpuTimeMs
  · exact other.bounded.cpuTimeMs
  · exact usage.bounded.wallTimeMs
  · exact other.bounded.wallTimeMs
  · exact usage.bounded.outputBytes
  · exact other.bounded.outputBytes

/-- **Usage is added up exactly**, in whatever order: there is a total exactly when the times and
the output come to no more than their limits, it is their sum and the highest peak, and no 64-bit
addition on the way to it wraps. -/
theorem foldlM_checkedAdd (usages : List ResourceUsage) :
    ((∃ total, usages.foldlM ResourceUsage.checkedAdd .default = .ok total) ↔
      (usages.map (·.cpuTimeMs)).sum ≤ maxCpuTimeMs ∧
        (usages.map (·.wallTimeMs)).sum ≤ maxWallTimeMs ∧
        (usages.map (·.outputBytes)).sum ≤ maxOutputBytes) ∧
    (∀ total, usages.foldlM ResourceUsage.checkedAdd .default = .ok total →
      total.toResourceUsageParts =
        { cpuTimeMs := (usages.map (·.cpuTimeMs)).sum
          wallTimeMs := (usages.map (·.wallTimeMs)).sum
          memoryPeakBytes := (usages.map (·.memoryPeakBytes)).foldr max 0
          outputBytes := (usages.map (·.outputBytes)).sum }) ∧
    (∀ others, usages.Perm others → ∀ total,
      usages.foldlM ResourceUsage.checkedAdd .default = .ok total ↔
        others.foldlM ResourceUsage.checkedAdd .default = .ok total) ∧
    ∀ before usage after total, usages = before ++ usage :: after →
      before.foldlM ResourceUsage.checkedAdd .default = .ok total →
      total.cpuTimeMs + usage.cpuTimeMs ≤ u64Max ∧ total.wallTimeMs + usage.wallTimeMs ≤ u64Max ∧
        total.outputBytes + usage.outputBytes ≤ u64Max := by
  have htotal (total : ResourceUsage) :
      usages.foldlM ResourceUsage.checkedAdd .default = .ok total ↔
        total.toResourceUsageParts = (usages.map ResourceUsage.toResourceUsageParts).sum := by
    rw [ResourceUsage.adds_checkedAdd.foldlM_eq_ok]
    exact Iff.of_eq (congrArg _ (zero_add _))
  refine ⟨?_, fun total h => ?_, fun others hperm total => ?_, fun _ usage _ total _ _ => ?_⟩
  · rw [← ResourceUsageParts.bounded_sum, ← ResourceUsageParts.validate_eq_ok]
    refine ⟨fun ⟨total, h⟩ => (htotal total).mp h ▸ total.valid, fun h => ?_⟩
    exact ⟨⟨_, h⟩, (htotal _).mpr rfl⟩
  · rw [(htotal total).mp h, ResourceUsageParts.sum_eq]
    simp only [List.map_map, Function.comp_def]
  · exact ResourceUsage.adds_checkedAdd.foldlM_perm hperm
  · exact total.add_le_u64Max usage

end OpenOJ
