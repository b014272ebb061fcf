import OpenOJ.Storage.Creation
import OpenOJ.Storage.Progress

/-!
# What a watcher sees

Whoever asks for the status of an evaluation time and again sees reports that only go forward:
within an attempt from queued to leased to a terminal state, and from an attempt that has not ended
to one with a greater number. A report that is `Behind` another is from before one of these moves,
and `Precedes` is the order of reports:

* `Precedes.trans`, `Precedes.antisymm`: it is an order, so a watcher who sees the same report twice
  has missed nothing in between but renewals;
* `Precedes.eq_of_terminal`: nothing but itself comes after the report of an end.

The rows advance in this order under every effect (`Effect.rowsAdvance`) and so over every run
(`rowsAdvance_runFrom`), and a report is made of the rows (`Triple.report_runFrom`). By
`reports_advance` an evaluation that is reported once is reported after every further run, and the
later report does not precede the earlier one unless they are the same.
-/

namespace OpenOJ

open Outcome Relation

/-! ### The order of reports -/

/-- How far an evaluation has come on its attempt. -/
def EvaluationState.stage : EvaluationState → Nat
  | .queued => 0
  | .leased => 1
  | .completed | .failed | .cancelled => 2

theorem EvaluationState.stage_lt_two {state : EvaluationState} :
    state.stage < 2 ↔ state.isTerminal = false := by
  cases state <;> decide

namespace EvaluationSnapshot

/-- The second report has come further: on the same attempt, or on a later one. -/
def Behind (s s' : EvaluationSnapshot) : Prop :=
  s.attemptNumber < s'.attemptNumber ∨ s.attemptNumber = s'.attemptNumber ∧
    s.currentAttemptId = s'.currentAttemptId ∧ s.state.stage < s'.state.stage

/-- The reports of one evaluation in the order in which they can be seen. -/
def Precedes (s s' : EvaluationSnapshot) : Prop :=
  s = s' ∨ s.evaluationId = s'.evaluationId ∧ s.state.isTerminal = false ∧ s.Behind s'

variable {s s' s'' : EvaluationSnapshot}

theorem Behind.trans (h : s.Behind s') (h' : s'.Behind s'') : s.Behind s'' := by
  rcases h with hlt | ⟨heq, hid, hstage⟩
  · rcases h' with hlt' | ⟨heq', -, -⟩
    · exact .inl (hlt.trans hlt')
    · exact .inl (heq' ▸ hlt)
  · rcases h' with hlt' | ⟨heq', hid', hstage'⟩
    · exact .inl (heq ▸ hlt')
    · exact .inr ⟨heq.trans heq', hid.trans hid', hstage.trans hstage'⟩

theorem Behind.irrefl (s : EvaluationSnapshot) : ¬s.Behind s := by
  rintro (h | ⟨-, -, h⟩) <;> exact Nat.lt_irrefl _ h

theorem Precedes.refl (s : EvaluationSnapshot) : s.Precedes s := .inl rfl

theorem Precedes.trans (h : s.Precedes s') (h' : s'.Precedes s'') : s.Precedes s'' := by
  rcases h with rfl | ⟨hid, hopen, hbehind⟩
  · exact h'
  · rcases h' with rfl | ⟨hid', -, hbehind'⟩
    · exact .inr ⟨hid, hopen, hbehind⟩
    · exact .inr ⟨hid.trans hid', hopen, hbehind.trans hbehind'⟩

theorem Precedes.antisymm (h : s.Precedes s') (h' : s'.Precedes s) : s = s' := by
  rcases h with heq | ⟨-, -, hbehind⟩
  · exact heq
  · rcases h' with heq | ⟨-, -, hbehind'⟩
    · exact heq.symm
    · exact absurd (hbehind.trans hbehind') (Behind.irrefl s)

/-- Nothing comes after a terminal report. -/
theorem Precedes.eq_of_terminal (h : s.Precedes s') (hended : s.state.isTerminal = true) :
    s = s' := by
  rcases h with heq | ⟨-, hopen, -⟩
  · exact heq
  · rw [hended] at hopen
    cases hopen

end EvaluationSnapshot

/-! ### Rows -/

variable {db db' db'' : Database}

/-- Every evaluation's rows are still there and have come no less far. -/
def RowsAdvance (db db' : Database) : Prop :=
  ∀ e a t, Triple db e a t →
    ∃ e' a' t', Triple db' e' a' t' ∧ (snapshotOf e a).Precedes (snapshotOf e' a')

theorem RowsAdvance.refl (db : Database) : RowsAdvance db db :=
  fun e a t h => ⟨e, a, t, h, .refl _⟩

theorem RowsAdvance.trans (h : RowsAdvance db db') (h' : RowsAdvance db' db'') :
    RowsAdvance db db'' := by
  intro e a t htriple
  obtain ⟨e', a', t', htriple', hprecedes⟩ := h e a t htriple
  obtain ⟨e'', a'', t'', htriple'', hprecedes'⟩ := h' e' a' t' htriple'
  exact ⟨e'', a'', t'', htriple'', hprecedes.trans hprecedes'⟩

/-- Rewriting the rows of one evaluation leaves the others where they are. -/
theorem Rewritten.rowsAdvance {e e' : EvaluationRow} {a a' : AttemptRow} {t t' : TaskRow}
    (h : Rewritten db db' e e' a a' t t')
    (hprecedes : (snapshotOf e a).Precedes (snapshotOf e' a')) : RowsAdvance db db' := by
  intro f b s hf
  by_cases hid : f.evaluationId = e.evaluationId
  · obtain ⟨rfl, rfl, rfl⟩ := h.triple.unique hf hid
    exact ⟨e', a', t', h.triple', hprecedes⟩
  · exact ⟨f, b, s, (h.sameRows hid).triple hf, .refl _⟩

/-- A stored attempt number is positive. -/
theorem Triple.attemptNumber_pos {e : EvaluationRow} {a : AttemptRow} {t : TaskRow}
    (h : Triple db e a t) : 0 < a.attemptNumber := by
  have hvalid : a.Valid := Table.check_of_find? h.attempt
  have := hvalid.numberBound
  omega

/-- **Rows advance** under every effect. -/
theorem Effect.rowsAdvance (hc : Coupled db) (h : Effect db db') : RowsAdvance db db' := by
  cases h with
  | created h => exact fun e a t htriple => ⟨e, a, t, h.other_triple htriple, .refl _⟩
  | @claimed e a t nodeId leaseToken expiry operationId now h =>
    refine h.rewritten.rowsAdvance (.inr ⟨rfl, ?_, .inr ⟨rfl, rfl, ?_⟩⟩)
    · exact congrArg EvaluationState.isTerminal h.evaluationQueued
    · change e.state.stage < 1
      rw [h.evaluationQueued]
      decide
  | renewed h =>
    obtain ⟨t, htriple⟩ := h.triple hc.linked
    exact (h.rewritten htriple).rowsAdvance (.inl rfl)
  | @superseded e a t request payload now h =>
    intro f b s hf
    by_cases hid : f.evaluationId = e.evaluationId
    · obtain ⟨rfl, rfl, rfl⟩ := h.triple.unique hf hid
      refine ⟨_, _, _, h.triple', .inr ⟨rfl, ?_, .inl ?_⟩⟩
      · exact congrArg EvaluationState.isTerminal h.evaluationLeased
      · have hpos := h.triple.attemptNumber_pos
        have hnumber : (attemptRow request payload now).attemptNumber = b.attemptNumber + 1 :=
          h.number
        change b.attemptNumber.toNat < (attemptRow request payload now).attemptNumber.toNat
        omega
    · exact ⟨f, b, s, (h.sameRows hid).triple hf, .refl _⟩
  | @finished e a t status payload key now h =>
    have hopen : e.state.isTerminal = false := by
      rcases h.evaluationOpen with hstate | hstate <;> rw [hstate] <;> rfl
    refine h.rewritten.rowsAdvance (.inr ⟨rfl, hopen, .inr ⟨rfl, rfl, ?_⟩⟩)
    have hlt : e.state.stage < 2 := EvaluationState.stage_lt_two.mpr hopen
    have hended : status.evaluationState.stage = 2 := by cases status <;> rfl
    exact hended ▸ hlt

/-! ### Runs -/

section Runs

variable [Wire]

theorem rowsAdvance_runFrom (hr : store.Reachable db) (ops : List Operation) :
    RowsAdvance db (store.runFrom db ops) := by
  refine Machine.run_related (R := RowsAdvance) RowsAdvance.refl RowsAdvance.trans ?_ hr ops
  intro db op hr
  have hc := coupled_of_reachable hr
  have heffects := (performed hc op).effects
  generalize store.next op db = db' at heffects
  induction heffects with
  | refl => exact .refl _
  | tail hinit hlast ih => exact ih.trans (hlast.rowsAdvance (hc.effects hinit))

/-- What is reported of an evaluation after a run. -/
theorem Triple.report_runFrom (hl : LosslessRequests) (hr : store.Reachable db) {e : EvaluationRow}
    {a : AttemptRow} {t : TaskRow} (htriple : Triple db e a t) (ops : List Operation) :
    ∃ report, evaluationStatus (store.runFrom db ops) e.evaluationId = .ok report ∧
      (snapshotOf e a).Precedes report := by
  obtain ⟨e', a', t', htriple', hprecedes⟩ := rowsAdvance_runFrom hr ops e a t htriple
  refine ⟨snapshotOf e' a', ?_, hprecedes⟩
  have hid : e'.evaluationId = e.evaluationId := by
    rcases hprecedes with heq | ⟨hid, -⟩
    · exact (congrArg EvaluationSnapshot.evaluationId heq).symm
    · exact hid.symm
  rw [← hid]
  exact evaluationStatus_ok (legible_of_reachable hl (hr.runFrom ops)) htriple'

/-- **Reports advance.** An evaluation that is reported once is reported after every further run,
and the later report does not precede the earlier one unless it is the same. -/
theorem reports_advance (hl : LosslessRequests) (hr : store.Reachable db) {id : EvaluationId}
    {report : EvaluationSnapshot} (h : evaluationStatus db id = .ok report)
    (ops : List Operation) :
    ∃ report', evaluationStatus (store.runFrom db ops) id = .ok report' ∧
      report.Precedes report' := by
  have hg := legible_of_reachable hl hr
  have hfound : ∃ e a, db.current? id = some (e, a) := by
    simp only [evaluationStatus, bind_eq_ok, orRefuse_eq_ok] at h
    obtain ⟨⟨e, a⟩, hcurrent, -⟩ := h
    exact ⟨e, a, hcurrent⟩
  obtain ⟨e, a, hcurrent⟩ := hfound
  obtain ⟨rfl, t, hcoupled⟩ := (coupled_of_reachable hr).current hcurrent
  obtain rfl : snapshotOf e a = report :=
    Except.ok.inj ((evaluationStatus_ok hg hcoupled.triple).symm.trans h)
  exact hcoupled.triple.report_runFrom hl hr ops

end Runs

section Json

attribute [local instance] jsonWire

/-- The fixture is reported as queued, and whatever happens to it comes later. -/
theorem reports_advance_fixture :
    ∃ db report, store.Reachable db ∧
      evaluationStatus db fixtureRequest.evaluationId = .ok report ∧ report.state = .queued ∧
        ∃ report', evaluationStatus (store.runFrom db [.claimTask fixtureClaim fun _ => false])
          fixtureRequest.evaluationId = .ok report' ∧ report.Precedes report' := by
  have hl : LosslessRequests := WireType.json_lossless _
  obtain ⟨payload, db, hrun, -, hcreated⟩ :=
    exists_created fixtureRequest fixtureParts_mediaType (by decide +kernel) ⟨0, by decide⟩
  have hr : store.Reachable db := ⟨_, hrun⟩
  have hreport := evaluationStatus_ok (legible_of_reachable hl hr) hcreated.triple
  exact ⟨db, _, hr, hreport, rfl, reports_advance hl hr hreport _⟩

end Json
end OpenOJ
