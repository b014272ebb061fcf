import OpenOJ.Storage.Renewal
import OpenOJ.Storage.Sweep

/-!
# Stale callers

A judge node that no longer holds the lease of an evaluation's current attempt is told so as long as
the attempt is leased to somebody. Once a recovery has queued the evaluation again, its current
attempt has no owner to compare with, and decoding the missing one is reported as corrupt data or as
an unavailable store instead.

* `judgeRenewLease_queued`, `judgeSubmitResult_queued`: what a renewal and a submission of a queued
  evaluation are answered;
* `judgeSubmitResult_stale`: a submission that does not hold the lease of a leased one
  (`JudgeSubmitResult.Holds`) is refused as stale;
* `stale_callers_iff`: stale callers of a non-terminal evaluation are told that their lease is
  stale, and change nothing, exactly when the evaluation is leased.

`late_worker` is a worker that renews and submits after a recovery has taken its attempt away.
-/

namespace OpenOJ

open Outcome

variable {db : Database}

/-- What makes a submission the holder's: it names the node, the attempt and the token of the
lease. -/
def JudgeSubmitResult.Holds (command : JudgeSubmitResult) (a : AttemptRow) : Prop :=
  a.attemptId = command.result.identity.attemptId ∧ a.nodeId = some command.nodeId ∧
    a.leaseToken = some command.leaseToken

/-- A result operation id is an idempotency key. -/
theorem parse_resultOperationId (id : ResultOperationId) :
    ∃ key, IdempotencyKey.parse id.value = .ok key := by
  have hvalid : validateOpaque id.value "idempotency_key" maxIdempotencyKeyLength = .ok () :=
    validateOpaque_mono (by decide) id.valid
  unfold IdempotencyKey.parse
  split
  · exact ⟨_, rfl⟩
  · rename_i h
    rw [hvalid] at h
    cases h

/-- The states of a non-terminal evaluation's attempt, and what its lease columns hold. -/
private theorem open_cases (hc : Coupled db) {id : EvaluationId} {e : EvaluationRow}
    {a : AttemptRow} (hcurrent : db.current? id = some (e, a))
    (hopen : e.state.isTerminal = false) :
    (e.state = .queued ∧ a.state = .queued ∧ a.nodeId = none) ∨
      (e.state = .leased ∧ a.state = .leased ∧ a.nodeId.isSome ∧ a.leaseToken.isSome) := by
  obtain ⟨-, t, hcoupled⟩ := hc.current hcurrent
  have hphase := hcoupled.phase
  have htidy := hc.tidy _ a hcoupled.triple.attempt
  generalize hes : e.state = es at hphase hopen
  generalize has : a.state = as at hphase
  generalize t.state = ts at hphase
  cases hphase with
  | queued => exact .inl ⟨rfl, rfl, (htidy.queued has).1⟩
  | leased => exact .inr ⟨rfl, rfl, (htidy.leased has).1, (htidy.leased has).2.1⟩
  | completed => cases hopen
  | failed => cases hopen
  | cancelled => cases hopen

/-- A renewal of an unclaimed attempt is reported as corrupt data. -/
theorem judgeRenewLease_queued {command : JudgeRenew} {e : EvaluationRow} {a : AttemptRow}
    {expiresAt : UnixMillis}
    (hexpires : command.now.checkedAdd command.leasePolicy.leaseDuration = .ok expiresAt)
    (hcurrent : db.current? command.evaluationId = some (e, a)) (hqueued : e.state = .queued)
    (hqueued' : a.state = .queued) (hnode : a.nodeId = none) :
    judgeRenewLease command db = (.error .corruptData, db) := by
  have hrefused : renewTransaction command db = .error .corruptData := by
    simp only [renewTransaction, hexpires, reportAs_ok, ok_bind, toI64_unixMillis, orRefuse_some,
      hcurrent, hqueued, hqueued', reduceCtorEq, or_self, if_false, hnode, orRefuse_none,
      error_bind]
  rw [judgeRenewLease, hrefused, transact_error]

section Submit

variable [Wire] {command : JudgeSubmitResult} {e : EvaluationRow} {a : AttemptRow}

/-- A submission for an unclaimed attempt is reported as an unavailable store. -/
theorem judgeSubmitResult_queued
    (hcurrent : db.current? command.result.identity.evaluationId = some (e, a))
    (hprovenance : command.result.provenance.nodeId = some command.nodeId)
    (hnode : a.nodeId = none) : judgeSubmitResult command db = (.error .unavailable, db) := by
  have hprepare : judgeSubmitPrepare command db = .error .unavailable := by
    simp only [judgeSubmitPrepare, refuseIf_neg (not_not.mpr hprovenance), ok_bind, ownerOf,
      hcurrent, hnode, orRefuse_none, error_bind]
  rw [judgeSubmitResult, hprepare]

/-- A submission that names another attempt or another token is stale. -/
private theorem submitTransaction_stale {command : SubmitResult} {payload : List UInt8}
    {leaseToken : LeaseToken}
    (hcurrent : db.current? command.result.identity.evaluationId = some (e, a))
    (hencode : encodeEvaluationResult command.result = .ok payload)
    (hresult : e.terminalResult = none) (hleased : e.state = .leased)
    (hleased' : a.state = .leased) (htoken : a.leaseToken = some leaseToken)
    (hother : e.currentAttemptId ≠ command.result.identity.attemptId ∨
      leaseToken ≠ command.leaseToken) :
    submitTransaction command db = .error .staleLease := by
  have hstored : storedResult e command.idempotencyKey payload = .ok false :=
    storedResult_eq_ok.mpr (.inl ⟨rfl, hresult⟩)
  simp only [submitTransaction, hencode, reportAs_ok, ok_bind, toI64_unixMillis, orRefuse_some,
    hcurrent, hstored, Bool.false_eq_true, if_false]
  by_cases hattempt : e.currentAttemptId = command.result.identity.attemptId
  · have hsame : ¬(e.state ≠ .leased ∨ a.state ≠ .leased ∨
        e.currentAttemptId ≠ command.result.identity.attemptId) := by
      simp [hleased, hleased', hattempt]
    have htoken' : leaseToken ≠ command.leaseToken := hother.resolve_left (not_not.mpr hattempt)
    rw [refuseIf_neg hsame, ok_bind, htoken, orRefuse_some, ok_bind, refuseIf_pos htoken',
      error_bind]
  · have hattempt' : e.state ≠ .leased ∨ a.state ≠ .leased ∨
        e.currentAttemptId ≠ command.result.identity.attemptId := .inr (.inr hattempt)
    rw [refuseIf_pos hattempt', error_bind]

/-- A submission for a leased attempt by anyone but its holder is stale. -/
theorem judgeSubmitResult_stale {payload : List UInt8} (hc : Coupled db)
    (hcurrent : db.current? command.result.identity.evaluationId = some (e, a))
    (hprovenance : command.result.provenance.nodeId = some command.nodeId)
    (hencode : encodeEvaluationResult command.result = .ok payload) (hleased : e.state = .leased)
    (hleased' : a.state = .leased) (hholds : ¬command.Holds a) :
    judgeSubmitResult command db = (.error .staleLease, db) := by
  obtain ⟨-, t, hcoupled⟩ := hc.current hcurrent
  obtain ⟨hnode, htoken, -⟩ := hcoupled.leased a hcoupled.triple.attemptOf hleased'
  obtain ⟨nodeId, hnode⟩ := Option.isSome_iff_exists.mp hnode
  obtain ⟨leaseToken, htoken⟩ := Option.isSome_iff_exists.mp htoken
  obtain ⟨key, hkey⟩ := parse_resultOperationId command.operationId
  have howner : ownerOf command.result.identity.evaluationId db = .ok (some nodeId) := by
    simp only [ownerOf, hcurrent, hnode, orRefuse_some, ok_bind]
    rfl
  unfold judgeSubmitResult
  by_cases hown : nodeId = command.nodeId
  · -- the owner's submission is compared again, attempt and token this time
    subst hown
    have hprepare : judgeSubmitPrepare command db = .ok (command.submitResult key) := by
      simp only [judgeSubmitPrepare, refuseIf_neg (not_not.mpr hprovenance), ok_bind, howner,
        refuseIf_neg (not_not.mpr rfl), hkey, reportAs_ok]
      rfl
    have hresult : e.terminalResult = none := by
      have hnone := hcoupled.result
      rw [hleased] at hnone
      exact Option.isNone_iff_eq_none.mp (by simpa [EvaluationState.isTerminal] using hnone)
    have hother : e.currentAttemptId ≠ command.result.identity.attemptId ∨
        leaseToken ≠ command.leaseToken := by
      by_contra h
      simp only [not_or, not_not] at h
      obtain ⟨hattempt, rfl⟩ := h
      exact hholds ⟨hcoupled.triple.attemptId.trans hattempt, hnode, htoken⟩
    have hrefused : submitTransaction (command.submitResult key) db = .error .staleLease :=
      submitTransaction_stale hcurrent hencode hresult hleased hleased' htoken hother
    simp only [hprepare, submitResult, hrefused, transact_error]
  · -- another node is refused before the transaction
    have hprepare : judgeSubmitPrepare command db = .error .staleLease := by
      have hother : some nodeId ≠ some command.nodeId := by simpa using hown
      simp only [judgeSubmitPrepare, refuseIf_neg (not_not.mpr hprovenance), ok_bind, howner,
        refuseIf_pos hother, error_bind]
    simp only [hprepare]

/-- **Stale callers** of a non-terminal evaluation are told that their lease is stale, and change
nothing, exactly when the evaluation is leased. -/
theorem stale_callers_iff (hr : store.Reachable db) {id : EvaluationId} {e : EvaluationRow}
    {a : AttemptRow} (hcurrent : db.current? id = some (e, a))
    (hopen : e.state.isTerminal = false) :
    (∀ command : JudgeRenew, command.evaluationId = id →
      (∃ expiresAt,
        command.now.checkedAdd command.leasePolicy.leaseDuration = .ok expiresAt) →
        ¬(e.state = .leased ∧ command.Holds a) →
          (judgeRenewLease command db = (.error .staleLease, db) ↔ e.state = .leased)) ∧
      ∀ command : JudgeSubmitResult, command.result.identity.evaluationId = id →
        (∃ payload, encodeEvaluationResult command.result = .ok payload) →
          command.result.provenance.nodeId = some command.nodeId →
            ¬(e.state = .leased ∧ command.Holds a) →
              (judgeSubmitResult command db = (.error .staleLease, db) ↔ e.state = .leased) := by
  have hc := coupled_of_reachable hr
  rcases open_cases hc hcurrent hopen with
    ⟨hqueued, hqueued', hnode⟩ | ⟨hleased, hleased', hnode, htoken⟩
  · have hleased : ¬e.state = .leased := by simp [hqueued]
    refine ⟨?_, ?_⟩
    · rintro command rfl ⟨expiresAt, hexpires⟩ -
      rw [judgeRenewLease_queued hexpires hcurrent hqueued hqueued' hnode]
      simp [hleased]
    · rintro command rfl ⟨payload, hencode⟩ hprovenance -
      rw [judgeSubmitResult_queued hcurrent hprovenance hnode]
      simp [hleased]
  · refine ⟨?_, ?_⟩
    · rintro command rfl ⟨expiresAt, hexpires⟩ hholds
      refine iff_of_true ?_ hleased
      exact judgeRenewLease_stale hc hexpires hcurrent hleased fun h => hholds ⟨hleased, h⟩
    · rintro command rfl ⟨payload, hencode⟩ hprovenance hholds
      refine iff_of_true ?_ hleased
      exact judgeSubmitResult_stale hc hcurrent hprovenance hencode hleased hleased' fun h =>
        hholds ⟨hleased, h⟩

end Submit

/-! ### A late worker -/

section Json

attribute [local instance] jsonWire

/-- A worker whose attempt was recovered is told of corrupt data when it renews, and of an
unavailable store when it submits. -/
theorem late_worker :
    ∃ db e a, store.Reachable db ∧ db.current? fixtureRequest.evaluationId = some (e, a) ∧
      e.state.isTerminal = false ∧
        judgeRenewLease (fixtureRenewal fixtureClaim.nodeId) db = (.error .corruptData, db) ∧
          ∀ command : JudgeSubmitResult,
            command.result.identity.evaluationId = fixtureRequest.evaluationId →
              command.result.provenance.nodeId = some command.nodeId →
                judgeSubmitResult command db = (.error .unavailable, db) := by
  obtain ⟨_, payload', _, db, hr, -, -, h⟩ := exists_retried_fixture
  have hcurrent : db.current? fixtureRequest.evaluationId = some _ := h.triple'.current?
  have hexpires : (fixtureRenewal fixtureClaim.nodeId).now.checkedAdd
      (fixtureRenewal fixtureClaim.nodeId).leasePolicy.leaseDuration = .ok ⟨6000, by decide⟩ :=
    UnixMillis.checkedAdd_eq_ok.mpr rfl
  exact ⟨db, _, _, hr, hcurrent, rfl, judgeRenewLease_queued hexpires hcurrent rfl rfl rfl,
    fun command hid hprovenance => judgeSubmitResult_queued (hid ▸ hcurrent) hprovenance rfl⟩

/-- Another node submits the fixture's rejection under the token of its lease. -/
def strangerSubmission : JudgeSubmitResult where
  operationId := ⟨"result_02", by decide +kernel⟩
  nodeId := strangerId
  leaseToken := fixtureClaim.leaseToken
  result := fixtureRejection
  now := fixtureLate

/-- Other nodes' renewals of a leased attempt are stale, and so is another node's submission. -/
theorem stale_callers_fixture :
    ∃ db, store.Reachable db ∧
      (∀ nodeId, nodeId ≠ fixtureClaim.nodeId →
        judgeRenewLease (fixtureRenewal nodeId) db = (.error .staleLease, db)) ∧
      judgeSubmitResult strangerSubmission db = (.error .staleLease, db) := by
  obtain ⟨payload, db, db', hrun, -, -, hclaimed⟩ :=
    exists_claimed_fixture fixtureRequest fixtureParts_mediaType (by decide +kernel)
  have hcurrent := hclaimed.rewritten.triple'.current?
  obtain ⟨hrenew, hsubmit⟩ := stale_callers_iff ⟨_, hrun⟩ hcurrent rfl
  refine ⟨db', ⟨_, hrun⟩, fun nodeId hne => ?_, ?_⟩
  · have hexpires : ∃ expiresAt, (fixtureRenewal nodeId).now.checkedAdd
        (fixtureRenewal nodeId).leasePolicy.leaseDuration = .ok expiresAt :=
      ⟨⟨6000, by decide⟩, UnixMillis.checkedAdd_eq_ok.mpr rfl⟩
    refine (hrenew (fixtureRenewal nodeId) rfl hexpires ?_).mpr rfl
    rintro ⟨-, -, hnode, -⟩
    exact hne (Option.some.inj hnode).symm
  · refine (hsubmit strangerSubmission rfl exists_encode_rejection rfl ?_).mpr rfl
    rintro ⟨-, -, hnode, -⟩
    exact absurd (Option.some.inj hnode) (by decide +kernel)

end Json
end OpenOJ
