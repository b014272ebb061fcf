import OpenOJ.Storage.Finality

/-!
# Where stored results come from

A result that is stored was there before or has just been written, and the two calls that write one
have read the request of the attempt that they end:

* `result_kept`: a call that finishes nothing leaves the results as they are;
* `submit_origin`: a submission stores a result whose identity is that of the request of the attempt
  it is for;
* `cancel_origin`: a cancellation does so too, for the current attempt.

`Authentic` says of an evaluation, its attempt and a text that the text is of a result for the
request of the attempt, and that the state of the evaluation is the one that the result reports. By
`results_authentic` every stored result is, after every run of the store.
-/

namespace OpenOJ

open Outcome Relation

section Origin

variable [Wire] {db : Database} {e f : EvaluationRow} {a b : AttemptRow} {t s : TaskRow}

/-- The text is a result for the attempt's request, and the evaluation is in the state that the
result reports. -/
structure Authentic (e : EvaluationRow) (a : AttemptRow) (payload : List UInt8)
    (request : EvaluationRequest) (result : EvaluationResult) : Prop where
  decodes : decodeEvaluationRequest a.requestPayload = .ok request
  encodes : encodeEvaluationResult result = .ok payload
  identity : result.identity = EvaluationIdentity.fromRequest request
  state : e.state = result.status.evaluationState

omit [Wire] in
/-- An evaluation that is not terminal has no result. -/
theorem EvaluationCoupled.unfinished (h : EvaluationCoupled db e a t)
    (hopen : e.state.isTerminal = false) : e.terminalResult = none := by
  rw [← Option.not_isSome_iff_eq_none, h.result, hopen]
  exact Bool.false_ne_true

/-- A call that writes no result leaves those that there are. -/
theorem result_kept (hc : Coupled db) {op : Operation} (hsubmit : op.submission? db = none)
    (hcancel : ∀ command, op ≠ .cancelEvaluation command) (h : Triple (store.next op db) f b s)
    (hresult : f.terminalResult.isSome) : Triple db f b s := by
  have hperformed := performed hc op
  generalize store.next op db = db' at hperformed h
  cases hperformed with
  | idle => exact h
  | created _ _ hcreated =>
    rcases hcreated.triple_cases h with ⟨rfl, -, -⟩ | h
    · cases hresult
    · exact h
  | claimed _ _ _ hclaimed =>
    rcases hclaimed.rewritten.triple_cases h with ⟨rfl, -, -⟩ | h
    · have hnone := (hc.of_triple hclaimed.triple).unfinished
        (by rw [hclaimed.evaluationQueued]; rfl)
      rw [EvaluationRow.move, hnone] at hresult
      cases hresult
    · exact h
  | renewed _ _ _ _ hrenewed =>
    obtain ⟨u, htriple⟩ := hrenewed.triple hc.linked
    rcases (hrenewed.rewritten htriple).triple_cases h with ⟨rfl, -, -⟩ | h
    · rw [(hc.of_triple htriple).unfinished (by rw [hrenewed.evaluationLeased]; rfl)] at hresult
      cases hresult
    · exact h
  | @recovered _ now _ _ hrecovered =>
    refine (recoveries_preserve (P := fun db' => ∀ f b s, Triple db' f b s →
      f.terminalResult.isSome → Triple db f b s) ?_ hrecovered hc fun _ _ _ h _ => h).2 f b s h
        hresult
    rintro db₁ db₂ hc₁ ⟨e, a, t, current, request, payload, -, -, -, hsuperseded⟩ ih f b s h hresult
    rcases hsuperseded.triple_cases h with ⟨rfl, -, -⟩ | h
    · have hnone := (hc₁.of_triple hsuperseded.triple).unfinished
        (by rw [hsuperseded.evaluationLeased]; rfl)
      rw [EvaluationRow.requeue, hnone] at hresult
      cases hresult
    · exact ih f b s h hresult
  | submitted hop => rw [hsubmit] at hop; cases hop
  | cancelled => exact absurd rfl (hcancel _)

/-- What a submission writes is its result, for the request of the attempt that its lease is on. -/
theorem submit_origin (hc : Coupled db) {command : SubmitResult} {payload : List UInt8}
    (h : Triple (submitResult command db).2 f b s) (hresult : f.terminalResult = some payload) :
    Triple db f b s ∨ ∃ e a t request, Triple db e a t ∧ Fenced command e a ∧
      b = a.move command.result.status.attemptState command.now.value ∧
        f.evaluationId = e.evaluationId ∧ Authentic f b payload request command.result := by
  rcases transact_cases (submitTransaction command db) (fun id db => evaluationStatus db id) db with
    ⟨_, -, heq⟩ | ⟨id, db', hok, heq⟩
  · rw [submitResult, heq] at h
    exact .inl h
  · rw [submitResult, heq] at h
    obtain ⟨-, stored, hencode, e, a, hcurrent, ⟨rfl, -⟩ | ⟨hfenced, t, hfinished⟩⟩ :=
      submitTransaction_spec hc.linked hok
    · exact .inl h
    · rcases hfinished.rewritten.triple_cases h with ⟨rfl, rfl, rfl⟩ | h
      · obtain rfl := Option.some.inj hresult
        -- the transaction has compared the identities
        simp only [submitTransaction, hencode, reportAs_ok, ok_bind, toI64_unixMillis,
          orRefuse_some, hcurrent, storedResult, hfinished.unfinished, pure, Except.pure,
          Bool.false_eq_true, if_false, bind_eq_ok, refuseIf_eq_ok, not_or, not_not,
          orRefuse_eq_ok, reportAs_eq_ok, exists_const] at hok
        obtain ⟨-, _, -, -, _, -, -, request, hdecode, hidentity, -⟩ := hok
        exact .inr ⟨e, a, t, request, hfinished.triple, hfenced, rfl, rfl, hdecode, hencode,
          hidentity.symm, rfl⟩
      · exact .inl h

/-- What a cancellation writes is its result, for the request of the current attempt. -/
theorem cancel_origin (hc : Coupled db) {command : CancelEvaluation} {payload : List UInt8}
    (h : Triple (cancelEvaluation command db).2 f b s) (hresult : f.terminalResult = some payload) :
    Triple db f b s ∨ ∃ request, Authentic f b payload request command.result := by
  rcases transact_cases (cancelTransaction command db) (fun id db => evaluationStatus db id) db with
    ⟨_, -, heq⟩ | ⟨id, db', hok, heq⟩
  · rw [cancelEvaluation, heq] at h
    exact .inl h
  · rw [cancelEvaluation, heq] at h
    obtain ⟨-, stored, hencode, e, a, hcurrent, ⟨rfl, -⟩ | ⟨-, -, t, hfinished⟩⟩ :=
      cancelTransaction_spec hc.linked hok
    · exact .inl h
    · rcases hfinished.rewritten.triple_cases h with ⟨rfl, rfl, rfl⟩ | h
      · obtain rfl := Option.some.inj hresult
        simp only [cancelTransaction, hencode, reportAs_ok, ok_bind, toI64_unixMillis,
          orRefuse_some, hcurrent, storedResult, hfinished.unfinished, pure, Except.pure,
          Bool.false_eq_true, if_false, bind_eq_ok, refuseIf_eq_ok, not_or, not_not,
          reportAs_eq_ok, exists_const] at hok
        obtain ⟨⟨hstatus, -⟩, -, -, request, hdecode, hidentity, -⟩ := hok
        exact .inr ⟨request, hdecode, hencode, hidentity.symm, by rw [hstatus]; rfl⟩
      · exact .inl h

/-- **Stored results are authentic**, after every run of the store. -/
theorem results_authentic (hr : store.Reachable db) {payload : List UInt8} (h : Triple db e a t)
    (hresult : e.terminalResult = some payload) :
    ∃ request result, Authentic e a payload request result := by
  refine hr.induction (P := fun db => ∀ e a t payload, Triple db e a t →
    e.terminalResult = some payload → ∃ request result, Authentic e a payload request result)
      (fun _ _ _ _ h => by cases h.evaluation) ?_ e a t payload h hresult
  intro db op hr ih e a t payload h hresult
  have hc := coupled_of_reachable hr
  have hsome : e.terminalResult.isSome := by rw [hresult]; rfl
  have hsubmitted {command : SubmitResult}
      (h : Triple (submitResult command db).2 e a t) :
      ∃ request result, Authentic e a payload request result := by
    rcases submit_origin hc h hresult with h | ⟨_, _, _, request, -, -, -, -, h⟩
    · exact ih e a t payload h hresult
    · exact ⟨request, _, h⟩
  cases op with
  | submitResult command => exact hsubmitted h
  | judgeSubmitResult command =>
    rcases hprepare : judgeSubmitPrepare command db with error | submission
    · have hnext : store.next (.judgeSubmitResult command) db = db := by
        simp [Machine.next, store, perform, judgeSubmitResult, hprepare]
      exact ih e a t payload (hnext ▸ h) hresult
    · have hnext : store.next (.judgeSubmitResult command) db = (submitResult submission db).2 := by
        simp [Machine.next, store, perform, judgeSubmitResult, hprepare]
      exact hsubmitted (hnext ▸ h)
  | cancelEvaluation command =>
    rw [next_cancelEvaluation] at h
    rcases cancel_origin hc h hresult with h | ⟨request, h⟩
    · exact ih e a t payload h hresult
    · exact ⟨request, _, h⟩
  | _ => exact ih e a t payload (result_kept hc rfl (by simp) h hsome) hresult

end Origin

section Json

attribute [local instance] jsonWire

/-- The result that the fixture was cancelled with. -/
theorem results_authentic_fixture :
    ∃ db e a t payload request result, store.Reachable db ∧ Triple db e a t ∧
      e.terminalResult = some payload ∧ Authentic e a payload request result := by
  obtain ⟨db, e, a, t, payload, hr, htriple, -, -, hresult, -⟩ := exists_cancelled_fixture
  obtain ⟨request, result, hauthentic⟩ := results_authentic hr htriple hresult
  exact ⟨db, e, a, t, payload, request, result, hr, htriple, hresult, hauthentic⟩

end Json
end OpenOJ
