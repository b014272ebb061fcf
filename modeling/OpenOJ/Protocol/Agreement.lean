import Mathlib.Algebra.Order.BigOperators.Group.List
import Mathlib.Algebra.Order.Ring.Nat
import OpenOJ.Protocol.ResultDocuments

/-!
# The two validators of results

What makes a result consistent is written twice in the source: over the strings of a document
(`validateResultSemantics`) and over domain values (`EvaluationResult.new`). The first one runs
before a document is written or after one was read, the second one whenever a result is built, and
neither calls the other.

Both are compared here with one statement of the rules: `Conclusive` says how the statuses of the
stages have to explain the status, the verdict and the points of a result (`Stopped`, `StoppedAt`:
what came before the terminal stage succeeded, what came after it was skipped), and `aggregateUsage`
is what the stages used together.

* `validateTerminalSemantics_eq_ok`: on stages in canonical order, the domain's validator checks
  that the result is conclusive; `ResultFields.build_iff` adds the usage and the bounds, so that the
  members of a document make a result exactly when they are `ResultFields.Consistent`;
* `validateResultSemantics_iff`: the document's validator checks that what its members say is
  conclusive and that the usage is the sum, although it counts with 64-bit integers that can
  overflow and looks stages up by their names;
* `validators_agree`: a document that the schema accepts as a result breaks no cross-field rule
  exactly when it reads as a domain result whose usage is the sum over its stages.

`validateResultSemantics_toValue` is the last comparison for the documents of domain results, where
the only rule that is left to check is the sum.
-/

namespace OpenOJ

open Outcome

/-! ### The rules -/

/-- The stages stopped at this place: what came before succeeded, what came after was
skipped. -/
def StoppedAt (statuses : List StageStatus) (index : Nat) (terminal : StageStatus) : Prop :=
  statuses[index]? = some terminal ∧ (∀ s ∈ statuses.take index, s = .succeeded) ∧
    ∀ s ∈ statuses.drop (index + 1), s = .skipped

/-- The stages stopped at the first one with the terminal status. -/
def Stopped (statuses : List StageStatus) (terminal : StageStatus) : Prop :=
  ∃ index, statuses.findIdx? (· = terminal) = some index ∧ StoppedAt statuses index terminal

/-- How the stages ended explains the status, the verdict and the points of a result. -/
def Conclusive (status : EvaluationStatus) (verdict : Verdict) (earned : Nat)
    (statuses : List StageStatus) : Prop :=
  match status, verdict with
  | .completed, .accepted | .completed, .wrongAnswer => ∀ s ∈ statuses, s = .succeeded
  | .completed, .compileError => earned = 0 ∧ StoppedAt statuses 1 .failed
  | .completed, .runtimeError | .completed, .timeLimitExceeded
  | .completed, .memoryLimitExceeded | .completed, .outputLimitExceeded =>
    earned = 0 ∧ StoppedAt statuses 2 .failed
  | .failed, .systemError => earned = 0 ∧ Stopped statuses .failed
  | .cancelled, .cancelled => earned = 0 ∧ Stopped statuses .cancelled
  | _, _ => False

/-! ### The domain's validator -/

theorem validateTerminalStagePattern_eq_ok {stages : List StageReport} {terminal : StageStatus} :
    validateTerminalStagePattern stages terminal = .ok () ↔
      Stopped (stages.map (·.status)) terminal := by
  simp only [validateTerminalStagePattern, Stopped, StoppedAt, bind_eq_ok, orRefuse_eq_ok,
    refuseIf_eq_ok, List.findIdx?_map, Function.comp_def, ← List.map_take, ← List.map_drop,
    List.forall_mem_map, List.any_eq_true, bne_iff_ne, ne_eq, not_or, not_exists, not_and,
    not_not, List.getElem?_map]
  refine exists_congr fun index => and_congr_right fun hindex => ?_
  -- the domain does not look at the stage it found again
  obtain ⟨hlt, hat, -⟩ := List.findIdx?_eq_some_iff_getElem.mp hindex
  have hget : stages[index]?.map (·.status) = some terminal := by
    rw [List.getElem?_eq_getElem hlt, Option.map_some, of_decide_eq_true hat]
  exact ⟨fun h => ⟨hget, h⟩, fun h => h.2⟩

/-- Where a stage stands in the canonical order. -/
private theorem findIdx?_stage {stages : List StageReport}
    (h : stages.map (·.stage) = algorithmBatchStages) (kind : StageKind) :
    (stages.findIdx? fun stage => stage.stage = kind) =
      algorithmBatchStages.findIdx? (· = kind) := by
  rw [← h, List.findIdx?_map]
  rfl

theorem validateRejectedStage_eq_ok {stages : List StageReport} {rejected : StageKind}
    {index : Nat} (h : stages.map (·.stage) = algorithmBatchStages)
    (hindex : algorithmBatchStages.findIdx? (· = rejected) = some index) :
    validateRejectedStage stages rejected = .ok () ↔
      StoppedAt (stages.map (·.status)) index .failed := by
  obtain ⟨hlt, -⟩ := List.findIdx?_eq_some_iff_getElem.mp hindex
  rw [← h, List.length_map] at hlt
  simp only [validateRejectedStage, StoppedAt, findIdx?_stage h, hindex, orRefuse_some, ok_bind,
    refuseIf_eq_ok, ← List.map_take, ← List.map_drop, List.forall_mem_map, List.any_eq_true,
    bne_iff_ne, ne_eq, not_or, not_exists, not_and, not_not, List.getElem?_map,
    List.getElem?_eq_getElem hlt, Option.any_some, Option.map_some, Option.some.injEq]

/-- **The domain's rules.** On stages in canonical order, the domain's validator checks that
the result is conclusive. -/
theorem validateTerminalSemantics_eq_ok {status : EvaluationStatus} {verdict : Verdict}
    {score : Score} {stages : List StageReport}
    (h : stages.map (·.stage) = algorithmBatchStages) :
    validateTerminalSemantics status verdict score stages = .ok () ↔
      Conclusive status verdict score.earned (stages.map (·.status)) := by
  have hbuild : validateRejectedStage stages .build = .ok () ↔
      StoppedAt (stages.map (·.status)) 1 .failed := validateRejectedStage_eq_ok h (by decide)
  have hrun : validateRejectedStage stages .run = .ok () ↔
      StoppedAt (stages.map (·.status)) 2 .failed := validateRejectedStage_eq_ok h (by decide)
  have hall : (∀ s ∈ stages.map (·.status), s = StageStatus.succeeded) ↔
      ¬(stages.any fun stage => stage.status != .succeeded) = true := by
    simp [List.any_eq_true]
  cases status <;> cases verdict <;>
    simp only [validateTerminalSemantics, Conclusive, bind_eq_ok, refuseIf_eq_ok, hall, hbuild,
      hrun, validateTerminalStagePattern_eq_ok, exists_const] <;>
    simp [and_comm]

/-! ### The document's validator -/

theorem StageStatus.asStr_injective : Function.Injective StageStatus.asStr := by
  intro s t h
  cases s <;> cases t <;> first | rfl | exact absurd h (by decide)

theorem StageKind.asStr_injective : Function.Injective StageKind.asStr := by
  intro s t h
  cases s <;> cases t <;> first | rfl | exact absurd h (by decide)

private theorem any_asStr (statuses : List StageStatus) (status : StageStatus) :
    ¬((statuses.map (·.asStr)).any (· != status.asStr)) = true ↔ ∀ s ∈ statuses, s = status := by
  simp [StageStatus.asStr_injective.eq_iff]

/-- The statuses written in a document stop where the statuses do. -/
private theorem validateTerminalPattern_asStr (statuses : List StageStatus) (index : Nat)
    (terminal : StageStatus) :
    validateTerminalPattern (statuses.map (·.asStr)) index terminal.asStr = .ok () ↔
      StoppedAt statuses index terminal := by
  have hget : (statuses.map (·.asStr))[index]? = some terminal.asStr ↔
      statuses[index]? = some terminal := by
    rw [List.getElem?_map, ← Option.map_some, (Option.map_injective
      StageStatus.asStr_injective).eq_iff]
  have htake := any_asStr (statuses.take index) .succeeded
  have hdrop := any_asStr (statuses.drop (index + 1)) .skipped
  rw [List.map_take] at htake
  rw [List.map_drop] at hdrop
  rw [validateTerminalPattern, violatesSemantics, refuseIf_eq_ok, not_or, not_or, ne_eq, not_not,
    hget]
  exact and_congr_right fun _ => and_congr htake hdrop

private theorem validateAnyTerminalPattern_asStr (statuses : List StageStatus)
    (terminal : StageStatus) :
    validateAnyTerminalPattern (statuses.map (·.asStr)) terminal.asStr = .ok () ↔
      Stopped statuses terminal := by
  have hfind : (statuses.map (·.asStr)).findIdx? (· == terminal.asStr) =
      statuses.findIdx? (· = terminal) := by
    rw [List.findIdx?_map]
    congr 1
    funext s
    exact Bool.eq_iff_iff.mpr (by
      rw [Function.comp_apply, beq_iff_eq, decide_eq_true_iff, StageStatus.asStr_injective.eq_iff])
  simp only [validateAnyTerminalPattern, Stopped, hfind, bind_eq_ok, orRefuse_eq_ok,
    validateTerminalPattern_asStr]

/-- The stages of a document, read against the names expected in their places. -/
private theorem mapM_stageStatusOf {values : List Json.Value} {stages : List StageReport}
    (h : List.Forall₂ ReportReads values stages) (names statuses : List String)
    (hlength : values.length = names.length) :
    (values.zip names).mapM stageStatusOf = .ok statuses ↔
      stages.map (·.stage.asStr) = names ∧ statuses = stages.map (·.status.asStr) := by
  induction h generalizing names statuses with
  | nil =>
    obtain rfl : names = [] := List.eq_nil_of_length_eq_zero hlength.symm
    simp [pure, Except.pure, eq_comm]
  | @cons value report values stages hreads _ ih =>
    obtain ⟨object, rfl, hreads⟩ := hreads
    cases names with
    | nil => cases hlength
    | cons name names =>
      have ih := fun statuses => ih names statuses (Nat.succ.inj hlength)
      have hstatus : ∀ status, stageStatusOf (.object object, name) = .ok status ↔
          report.stage.asStr = name ∧ report.status.asStr = status := by
        intro status
        simp only [stageStatusOf, asObject, Json.Value.asObject?_object, orRefuse_some, ok_bind,
          hreads.stage, hreads.status, violatesSemantics, bind_eq_ok, refuseIf_eq_ok, ne_eq,
          not_not, exists_const, Except.ok.injEq]
      simp only [List.zip_cons_cons, List.mapM_cons, bind_eq_ok, hstatus, ih, pure, Except.pure,
        Except.ok.injEq, List.map_cons, List.cons.injEq]
      constructor
      · rintro ⟨_, ⟨hname, rfl⟩, _, ⟨hnames, rfl⟩, rfl⟩
        exact ⟨⟨hname, hnames⟩, rfl⟩
      · rintro ⟨⟨hname, hnames⟩, rfl⟩
        exact ⟨_, ⟨hname, rfl⟩, _, ⟨hnames, rfl⟩, rfl⟩

/-- The document's stages are in canonical order and end as the status and the verdict say. The
points are looked at elsewhere. -/
private theorem validateResultStages_eq_ok {values : List Json.Value} {stages : List StageReport}
    {status : EvaluationStatus} {verdict : Verdict}
    (h : List.Forall₂ ReportReads values stages) :
    validateResultStages values status.asStr verdict.asStr = .ok () ↔
      stages.map (·.stage) = algorithmBatchStages ∧
        Conclusive status verdict 0 (stages.map (·.status)) := by
  have hnames : stages.map (·.stage.asStr) = ["prepare", "build", "run", "check", "aggregate"] ↔
      stages.map (·.stage) = algorithmBatchStages := by
    rw [← (List.map_injective_iff.mpr StageKind.asStr_injective).eq_iff, List.map_map]
    exact Iff.rfl
  by_cases hlength : values.length = 5
  · have hread := fun statuses => mapM_stageStatusOf h
      ["prepare", "build", "run", "check", "aggregate"] statuses hlength
    have hstatuses : stages.map (·.status.asStr) = (stages.map (·.status)).map (·.asStr) := by
      rw [List.map_map]
      rfl
    simp only [validateResultStages, bind_eq_ok, hread, hnames, violatesSemantics, refuseIf_eq_ok,
      List.length_cons, List.length_nil, hlength, exists_const, and_assoc, exists_and_left,
      exists_eq_left, ne_eq, not_true, not_false_iff, true_and, hstatuses]
    refine and_congr_right fun _ => ?_
    generalize stages.map (·.status) = statuses
    have hall : ¬((statuses.map (·.asStr)).any (· != "succeeded")) = true ↔
        ∀ s ∈ statuses, s = .succeeded := any_asStr statuses .succeeded
    have hfailed : ∀ index, validateTerminalPattern (statuses.map (·.asStr)) index "failed" =
        .ok () ↔ StoppedAt statuses index .failed :=
      fun index => validateTerminalPattern_asStr statuses index .failed
    have hanyFailed : validateAnyTerminalPattern (statuses.map (·.asStr)) "failed" = .ok () ↔
        Stopped statuses .failed := validateAnyTerminalPattern_asStr statuses .failed
    have hanyCancelled : validateAnyTerminalPattern (statuses.map (·.asStr)) "cancelled" =
        .ok () ↔ Stopped statuses .cancelled :=
      validateAnyTerminalPattern_asStr statuses .cancelled
    generalize statuses.map (·.asStr) = names at hall hfailed hanyFailed hanyCancelled ⊢
    -- from here on each status meets each verdict
    cases status <;> cases verdict <;>
      simp [EvaluationStatus.asStr, Verdict.asStr, Conclusive, ← hall, hfailed, hanyFailed,
        hanyCancelled]
  · refine iff_of_false ?_ ?_
    · intro hok
      obtain ⟨_, hguard, -⟩ := bind_eq_ok.mp hok
      exact refuseIf_eq_ok.mp hguard hlength
    · rintro ⟨hstages, -⟩
      have := congrArg List.length hstages
      rw [List.length_map, ← h.length_eq] at this
      exact hlength this

/-- The loop over the stages adds up what they used, as long as the sums fit. -/
private theorem foldlM_addStageUsage {values : List Json.Value} {stages : List StageReport}
    (h : List.Forall₂ ReportReads values stages) (totals : UsageTotals)
    (hcpu : totals.cpuTimeMs + (aggregateUsage stages).cpuTimeMs ≤ Json.Value.u64Max)
    (hwall : totals.wallTimeMs + (aggregateUsage stages).wallTimeMs ≤ Json.Value.u64Max)
    (houtput : totals.outputBytes + (aggregateUsage stages).outputBytes ≤ Json.Value.u64Max) :
    values.foldlM addStageUsage totals = .ok
      { cpuTimeMs := totals.cpuTimeMs + (aggregateUsage stages).cpuTimeMs
        wallTimeMs := totals.wallTimeMs + (aggregateUsage stages).wallTimeMs
        memoryPeakBytes := max totals.memoryPeakBytes (aggregateUsage stages).memoryPeakBytes
        outputBytes := totals.outputBytes + (aggregateUsage stages).outputBytes } := by
  induction h generalizing totals with
  | nil => simp [aggregateUsage, pure, Except.pure]
  | @cons value report values stages hreads _ ih =>
    obtain ⟨object, rfl, hreads⟩ := hreads
    obtain ⟨_, husage, usage, rfl, hmembers⟩ := hreads.usage
    -- the bound on the whole bounds the first sum
    simp only [aggregateUsage, List.map_cons, List.sum_cons] at hcpu hwall houtput
    have hcpu' : totals.cpuTimeMs + report.usage.cpuTimeMs ≤ Json.Value.u64Max := by omega
    have hwall' : totals.wallTimeMs + report.usage.wallTimeMs ≤ Json.Value.u64Max := by omega
    have houtput' : totals.outputBytes + report.usage.outputBytes ≤ Json.Value.u64Max := by omega
    have hstep : addStageUsage totals (.object object) = .ok
        { cpuTimeMs := totals.cpuTimeMs + report.usage.cpuTimeMs
          wallTimeMs := totals.wallTimeMs + report.usage.wallTimeMs
          memoryPeakBytes := max totals.memoryPeakBytes report.usage.memoryPeakBytes
          outputBytes := totals.outputBytes + report.usage.outputBytes } := by
      have hfits : ∀ {a b : Nat}, a + b ≤ Json.Value.u64Max → checkedAddU64 a b = .ok (a + b) :=
        fun hle => if_pos hle
      simp only [addStageUsage, asObject, Json.Value.asObject?_object, orRefuse_some, ok_bind,
        husage, hmembers.cpuTimeMs, hmembers.wallTimeMs, hmembers.memoryPeakBytes,
        hmembers.outputBytes, hfits hcpu', hfits hwall', hfits houtput']
      rfl
    rw [List.foldlM_cons, hstep, ok_bind, ih]
    · simp [aggregateUsage, Nat.add_assoc, Nat.max_assoc]
    all_goals
      simp only [aggregateUsage]
      omega

/-- What at most five stages used together fits a counter. -/
private theorem sum_le_u64Max {stages : List StageReport} {f : StageReport → Nat} {maximum : Nat}
    (hlength : stages.length = 5) (hf : ∀ report ∈ stages, f report ≤ maximum)
    (hmax : 5 * maximum ≤ Json.Value.u64Max) : (stages.map f).sum ≤ Json.Value.u64Max := by
  have hsum := List.sum_le_card_nsmul (stages.map f) maximum (List.forall_mem_map.mpr hf)
  rw [List.length_map, hlength] at hsum
  exact Nat.le_trans hsum hmax

/-- The usage written in a document is what its stages used together. -/
private theorem validateAggregateUsage_eq_ok {object : List (String × Json.Value)}
    {values : List Json.Value} {stages : List StageReport} {value : Json.Value}
    {usage : ResourceUsage} (h : List.Forall₂ ReportReads values stages)
    (hlength : stages.length = 5) (hfield : field object "usage" = .ok value)
    (hreads : UsageReads value usage) :
    validateAggregateUsage object values = .ok () ↔
      usage.toResourceUsageParts = aggregateUsage stages := by
  obtain ⟨members, rfl, hmembers⟩ := hreads
  have hcpu : (aggregateUsage stages).cpuTimeMs ≤ Json.Value.u64Max :=
    sum_le_u64Max hlength (fun report _ => report.usage.bounds.1) (by decide)
  have hwall : (aggregateUsage stages).wallTimeMs ≤ Json.Value.u64Max :=
    sum_le_u64Max hlength (fun report _ => report.usage.bounds.2.1) (by decide)
  have houtput : (aggregateUsage stages).outputBytes ≤ Json.Value.u64Max :=
    sum_le_u64Max hlength (fun report _ => report.usage.bounds.2.2.2) (by decide)
  have hloop := foldlM_addStageUsage h ⟨0, 0, 0, 0⟩ (by simpa using hcpu) (by simpa using hwall)
    (by simpa using houtput)
  simp only [Nat.zero_add, Nat.zero_max] at hloop
  simp only [validateAggregateUsage, hloop, ok_bind, hfield, asObject, Json.Value.asObject?_object,
    orRefuse_some, hmembers.cpuTimeMs, hmembers.wallTimeMs, hmembers.memoryPeakBytes,
    hmembers.outputBytes, violatesSemantics, bind_eq_ok, refuseIf_eq_ok, ne_eq, not_not,
    exists_const]
  rcases usage with ⟨⟨cpu, wall, memory, output⟩, -⟩
  rcases aggregateUsage stages with ⟨cpu', wall', memory', output'⟩
  exact (ResourceUsageParts.mk.injEq ..).symm ▸ Iff.rfl

/-! ### Agreement -/

/-- What the members of a document say makes a result. -/
structure ResultFields.Consistent (fields : ResultFields) : Prop where
  score : fields.earned ≤ fields.possible
  order : fields.stages.map (·.stage) = algorithmBatchStages
  conclusive : Conclusive fields.status fields.verdict fields.earned
    (fields.stages.map (·.status))
  mock : ¬(fields.executorKind = .developmentMock ∧ fields.productionEligible = true)
  named : ¬(fields.productionEligible = true ∧ fields.nodeId = none)

/-- **The domain.** The members make a result exactly when they are consistent, and the result
keeps the stages and the usage. -/
theorem ResultFields.build_iff {fields : ResultFields} (hb : fields.Bounded)
    (p : List StageReport → ResourceUsage → Prop) :
    (∃ r, fields.build = .ok r ∧ p r.stages r.usage) ↔
      fields.Consistent ∧ p fields.stages fields.usage := by
  constructor
  · rintro ⟨r, hbuild, hp⟩
    obtain ⟨score, hscore, hbuild⟩ := bind_eq_ok.mp hbuild
    obtain ⟨provenance, hprovenance, hbuild⟩ := bind_eq_ok.mp hbuild
    rw [fromDomain_eq_ok] at hscore hprovenance hbuild
    obtain ⟨hearned, hpossible⟩ := Score.new_eq_ok.mp hscore
    obtain ⟨hkind, heligible, -, hnode⟩ := ExecutionProvenance.new_eq_ok.mp hprovenance
    have hvalid := r.valid
    rw [EvaluationResult.new_eq_ok.mp hbuild] at hp hvalid
    obtain ⟨horder, -, -, -, hterminal⟩ := EvaluationResultParts.validate_eq_ok.mp hvalid
    refine ⟨⟨?_, horder, ?_, ?_, ?_⟩, hp⟩
    · rw [← hearned, ← hpossible]
      exact score.valid.2
    · rw [← hearned]
      exact (validateTerminalSemantics_eq_ok horder).mp hterminal
    · rw [← hkind, ← heligible]
      exact provenance.mock
    · rw [← heligible, ← hnode]
      exact provenance.named
  · rintro ⟨h, hp⟩
    -- each constructor on the way succeeds
    have hscore : Score.new fields.earned fields.possible =
        .ok ⟨fields.earned, fields.possible, hb.possible.2, hb.possible.1, h.score⟩ :=
      dif_pos ⟨hb.possible.2, hb.possible.1, h.score⟩
    have hprovenance : ExecutionProvenance.new fields.executorKind fields.productionEligible
        fields.identity.runtimeDigest fields.nodeId = .ok ⟨fields.executorKind,
          fields.productionEligible, fields.identity.runtimeDigest, fields.nodeId, h.mock,
          h.named⟩ := by
      rw [ExecutionProvenance.new, dif_pos h.mock, dif_pos h.named]
    simp only [ResultFields.build, hscore, hprovenance, fromDomain_ok, ok_bind]
    rw [EvaluationResult.new_of_valid (EvaluationResultParts.validate_eq_ok.mpr ⟨h.order,
      hb.diagnostics, hb.evidence, rfl,
      (validateTerminalSemantics_eq_ok h.order).mpr h.conclusive⟩)]
    exact ⟨_, rfl, hp⟩

/-- The guards on the points, one for each status, on top of how the stages ended. -/
private theorem conclusive_iff (status : EvaluationStatus) (verdict : Verdict) (earned : Nat)
    (statuses : List StageStatus) :
    Conclusive status verdict earned statuses ↔
      ¬(status.asStr = "completed" ∧ verdict.asStr ∈ ["cancelled", "system_error"]) ∧
      ¬(status.asStr = "failed" ∧ (verdict.asStr ≠ "system_error" ∨ earned ≠ 0)) ∧
      ¬(status.asStr = "cancelled" ∧ (verdict.asStr ≠ "cancelled" ∨ earned ≠ 0)) ∧
      ¬status.asStr ∉ ["completed", "failed", "cancelled"] ∧
      ¬(status.asStr = "completed" ∧ verdict.asStr ∈ rejectedVerdicts ∧ earned ≠ 0) ∧
      Conclusive status verdict 0 statuses := by
  cases status <;> cases verdict <;>
    simp [EvaluationStatus.asStr, Verdict.asStr, rejectedVerdicts, Conclusive]

private theorem length_of_order {stages : List StageReport}
    (h : stages.map (·.stage) = algorithmBatchStages) : stages.length = 5 := by
  rw [← List.length_map (·.stage), h]
  rfl

/-- **The document.** Whoever checks the document's semantics checks that what its members say
is consistent and that the usage is what the stages used together. -/
theorem validateResultSemantics_iff {value : Json.Value} {fields : ResultFields}
    (h : ResultReads value fields) :
    validateResultSemantics value = .ok () ↔
      fields.Consistent ∧ fields.usage.toResourceUsageParts = aggregateUsage fields.stages := by
  obtain ⟨object, score, provenance, rfl, h⟩ := h
  obtain ⟨values, hstages, hreports⟩ := h.stages
  obtain ⟨usage, husage, hreads⟩ := h.usage
  -- the comparisons with texts are comparisons of what they read as
  have hkind : fields.executorKind.asStr = "development_mock" ↔
      fields.executorKind = .developmentMock := by
    cases fields.executorKind <;> simp [ExecutorKind.asStr]
  have hnode : (Json.get? provenance "node_id").isNone = true ↔ fields.nodeId = none := by
    have hread := h.nodeId
    unfold optionalField at hread
    cases hget : Json.get? provenance "node_id" with
    | none =>
      rw [hget] at hread
      simp [← Except.ok.inj hread]
    | some v =>
      rw [hget] at hread
      obtain ⟨nodeId, -, hsome⟩ := bind_eq_ok.mp hread
      simp [← Except.ok.inj hsome]
  simp only [validateResultSemantics, asObject, asArray, Json.Value.asObject?_object,
    Json.Value.asArray?_array, Json.Value.asBool?_bool, orRefuse_some, ok_bind, h.status, h.verdict,
    h.scoreObject, h.earned, h.possible, hstages, h.provenanceObject, h.executorKind,
    h.productionEligible, violatesSemantics, bind_eq_ok, refuseIf_eq_ok, exists_const,
    validateResultStages_eq_ok hreports, hkind, hnode]
  -- the usage is compared once the stages are known to be the five of the plan
  constructor
  · rintro ⟨hscore, hcompleted, hfailed, hcancelled, hknown, hrejected, ⟨horder, hend⟩, ⟨⟩,
      hagg, hprov⟩
    rw [validateAggregateUsage_eq_ok hreports (length_of_order horder) husage hreads] at hagg
    refine ⟨⟨Nat.not_lt.mp hscore, horder, (conclusive_iff ..).mpr ⟨hcompleted, hfailed,
      hcancelled, hknown, hrejected, hend⟩, ?_, ?_⟩, hagg⟩
    · exact fun hmock => hprov ⟨hmock.2, .inl hmock.1⟩
    · exact fun hunnamed => hprov ⟨hunnamed.1, .inr hunnamed.2⟩
  · rintro ⟨hconsistent, hagg⟩
    obtain ⟨hcompleted, hfailed, hcancelled, hknown, hrejected, hend⟩ :=
      (conclusive_iff ..).mp hconsistent.conclusive
    refine ⟨Nat.not_lt.mpr hconsistent.score, hcompleted, hfailed, hcancelled, hknown, hrejected,
      ⟨hconsistent.order, hend⟩, (), ?_, ?_⟩
    · rwa [validateAggregateUsage_eq_ok hreports (length_of_order hconsistent.order) husage hreads]
    · rintro ⟨heligible, hmock | hunnamed⟩
      exacts [hconsistent.mock ⟨hmock, heligible⟩, hconsistent.named ⟨heligible, hunnamed⟩]

/-- The document of a result breaks no rule exactly when its usage is what its stages used
together. -/
theorem validateResultSemantics_toValue (result : EvaluationResult) :
    validateResultSemantics (resultToValue result) = .ok () ↔
      result.usage.toResourceUsageParts = aggregateUsage result.stages := by
  have hconsistent : result.fields.Consistent :=
    ((ResultFields.build_iff result.fields_bounded fun _ _ => True).mp
      ⟨result, result.build_fields, trivial⟩).1
  rw [validateResultSemantics_iff (resultReads_toValue result)]
  exact and_iff_right hconsistent

/-- **Agreement of the validators.** A document that the schema accepts as a result breaks no
cross-field rule exactly when it reads as a domain result whose usage is what its stages used
together, and the same holds of the document of every domain result. -/
theorem validators_agree :
    (∀ value, Schema.evaluationResult value = true →
      (validateResultSemantics value = .ok () ↔
        ∃ result, resultFromValue value = .ok result ∧
          result.usage.toResourceUsageParts = aggregateUsage result.stages)) ∧
    ∀ result : EvaluationResult,
      validateResultSemantics (resultToValue result) = .ok () ↔
        result.usage.toResourceUsageParts = aggregateUsage result.stages := by
  refine ⟨fun value hschema => ?_, validateResultSemantics_toValue⟩
  obtain ⟨fields, hreads, hbounded⟩ := exists_resultReads hschema
  rw [validateResultSemantics_iff hreads, resultFromValue_of_reads hreads hbounded]
  exact (ResultFields.build_iff hbounded fun stages usage =>
    usage.toResourceUsageParts = aggregateUsage stages).symm

/-- The document of the fixture's cancellation is one the schema accepts, and both validators
accept it. -/
theorem validators_agree_fixture :
    Schema.evaluationResult (resultToValue fixtureCancellation) = true ∧
      validateResultSemantics (resultToValue fixtureCancellation) = .ok () ∧
      ∃ result, resultFromValue (resultToValue fixtureCancellation) = .ok result ∧
        result.usage.toResourceUsageParts = aggregateUsage result.stages := by
  have hschema : Schema.evaluationResult (resultToValue fixtureCancellation) = true := by
    decide +kernel
  have hsemantics : validateResultSemantics (resultToValue fixtureCancellation) = .ok () :=
    (validators_agree.2 fixtureCancellation).mpr (by decide)
  exact ⟨hschema, hsemantics, (validators_agree.1 _ hschema).mp hsemantics⟩

end OpenOJ
