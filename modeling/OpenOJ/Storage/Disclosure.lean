import OpenOJ.Storage.Finality
import OpenOJ.Storage.Renewal

/-!
# Who learns of a cancellation

A renewal tells a worker that its evaluation was cancelled. The transaction looks at the states of
the evaluation and of its current attempt before it looks at who is asking, so the answer reaches
every caller of a cancelled evaluation and not only the recorded holder of its lease:

* `judgeRenewLease_cancelled`: every renewal of a cancelled evaluation is told so, whoever asks;
* `cancelled_of_judgeRenewLease`: and nobody is told so of another evaluation.

`TellsHolderOnly` is what the answer would be if it was for the holder alone. `tellsHolderOnly_iff`
says for which callers in which states it is: those of an evaluation that is not cancelled, and the
holder. `judgeRenewLease_discloses` is a stranger who learns of one.
-/

namespace OpenOJ

open Outcome

variable {db : Database} {command : JudgeRenew} {e : EvaluationRow} {a : AttemptRow}
  {expiresAt : UnixMillis}

/-- The current attempt of an evaluation is cancelled exactly when the evaluation is. -/
private theorem attempt_cancelled_iff (hc : Coupled db) {id : EvaluationId}
    (hcurrent : db.current? id = some (e, a)) : a.state = .cancelled ↔ e.state = .cancelled := by
  obtain ⟨-, t, hcoupled⟩ := hc.current hcurrent
  have hphase := hcoupled.phase
  generalize e.state = evaluationState, a.state = attemptState, t.state = taskState at hphase
  cases hphase <;> simp

/-- **Every renewal of a cancelled evaluation is told so**, whoever asks. -/
theorem judgeRenewLease_cancelled
    (hexpires : command.now.checkedAdd command.leasePolicy.leaseDuration = .ok expiresAt)
    (hcurrent : db.current? command.evaluationId = some (e, a))
    (hcancelled : e.state = .cancelled) :
    judgeRenewLease command db = (.ok .cancel, db) := by
  have hcommit : renewTransaction command db = .ok (.cancel, db) := by
    simp only [renewTransaction, hexpires, reportAs_ok, ok_bind, toI64_unixMillis, orRefuse_some,
      hcurrent, hcancelled, true_or, if_true]
    rfl
  rw [judgeRenewLease, hcommit, transact_ok]

/-- Nobody is told of a cancellation that did not happen. -/
theorem cancelled_of_judgeRenewLease (hc : Coupled db)
    (h : (judgeRenewLease command db).1 = .ok .cancel) :
    ∃ e a, db.current? command.evaluationId = some (e, a) ∧ e.state = .cancelled := by
  unfold judgeRenewLease at h
  rcases transact_cases (renewTransaction command db) (fun directive _ => .ok directive) db with
    ⟨_, -, heq⟩ | ⟨directive, db', hok, heq⟩
  · rw [heq] at h
    cases h
  · rw [heq] at h
    obtain rfl : directive = .cancel := Except.ok.inj h
    rcases renewTransaction_spec hok with ⟨-, -, e, a, hcurrent, hstate⟩ | ⟨_, _, _, habsurd, -⟩
    · -- an attempt is only cancelled together with its evaluation
      refine ⟨e, a, hcurrent, hstate.elim id (attempt_cancelled_iff hc hcurrent).mp⟩
    · cases habsurd

/-- A renewal tells its caller of a cancellation exactly when the caller holds the lease of the
cancelled attempt, and tells everybody else that its lease is stale. -/
structure TellsHolderOnly (db : Database) (command : JudgeRenew) : Prop where
  cancel : (judgeRenewLease command db).1 = .ok .cancel ↔
    ∃ e a, db.current? command.evaluationId = some (e, a) ∧ e.state = .cancelled ∧ command.Holds a
  stale : ∀ e a, db.current? command.evaluationId = some (e, a) → e.state = .cancelled →
    ¬command.Holds a → (judgeRenewLease command db).1 = .error .staleLease

/-- **Cancellations are disclosed.** From every reachable state, a renewal keeps a cancellation
to the holder of the lease exactly when no other caller asks about a cancelled evaluation: it is
of an evaluation that is not cancelled, or its command names the node, the attempt and the token
of the cancelled attempt. -/
theorem tellsHolderOnly_iff [Wire] (hr : store.Reachable db)
    (hexpires : command.now.checkedAdd command.leasePolicy.leaseDuration = .ok expiresAt) :
    TellsHolderOnly db command ↔ ∀ e a, db.current? command.evaluationId = some (e, a) →
      e.state = .cancelled → command.Holds a := by
  have hc := coupled_of_reachable hr
  constructor
  · intro h e a hcurrent hcancelled
    have hanswer := congrArg Prod.fst (judgeRenewLease_cancelled hexpires hcurrent hcancelled)
    obtain ⟨e', a', hcurrent', -, hholds⟩ := h.cancel.mp hanswer
    obtain ⟨rfl, rfl⟩ : e = e' ∧ a = a' := by simpa using hcurrent.symm.trans hcurrent'
    exact hholds
  · intro h
    refine ⟨⟨fun hanswer => ?_, ?_⟩, ?_⟩
    · obtain ⟨e, a, hcurrent, hcancelled⟩ := cancelled_of_judgeRenewLease hc hanswer
      exact ⟨e, a, hcurrent, hcancelled, h e a hcurrent hcancelled⟩
    · rintro ⟨e, a, hcurrent, hcancelled, -⟩
      exact congrArg Prod.fst (judgeRenewLease_cancelled hexpires hcurrent hcancelled)
    · intro e a hcurrent hcancelled hother
      exact absurd (h e a hcurrent hcancelled) hother

/-! ### A stranger's renewal -/

section Json

attribute [local instance] jsonWire

/-- An evaluation that nobody ever claimed is cancelled, and a renewal by any node is told so. -/
theorem judgeRenewLease_discloses :
    ∃ db e a, store.Reachable db ∧ db.current? fixtureRequest.evaluationId = some (e, a) ∧
      e.state = .cancelled ∧ ∀ nodeId, ¬(fixtureRenewal nodeId).Holds a ∧
        (judgeRenewLease (fixtureRenewal nodeId) db).1 = .ok .cancel := by
  obtain ⟨db, e, a, t, -, hr, htriple, hid, hcancelled, -, hnode⟩ := exists_cancelled_fixture
  have hcurrent : db.current? fixtureRequest.evaluationId = some (e, a) := hid ▸ htriple.current?
  refine ⟨db, e, a, hr, hcurrent, hcancelled, fun nodeId => ⟨?_, ?_⟩⟩
  · rintro ⟨-, hnode', -⟩
    rw [hnode] at hnode'
    cases hnode'
  · have hexpires : (fixtureRenewal nodeId).now.checkedAdd
        (fixtureRenewal nodeId).leasePolicy.leaseDuration = .ok ⟨6000, by decide⟩ :=
      UnixMillis.checkedAdd_eq_ok.mpr rfl
    exact congrArg Prod.fst (judgeRenewLease_cancelled hexpires hcurrent hcancelled)

/-- The fixture is cancelled while it is leased. -/
private theorem exists_cancelled_lease :
    ∃ db e a, store.Reachable db ∧ db.current? fixtureRequest.evaluationId = some (e, a) ∧
      e.state = .cancelled ∧ (fixtureRenewal fixtureClaim.nodeId).Holds a := by
  obtain ⟨payload, db, db', hrun, hpayload, hcreated, hclaimed⟩ :=
    exists_claimed_fixture fixtureRequest fixtureParts_mediaType (by decide +kernel)
  have hr : store.Reachable db' := ⟨_, hrun⟩
  have hdecode := decode_of_encode (WireType.json_lossless _) hpayload
  obtain ⟨db'', stored, hstep, h⟩ := cancel_fixture hr hclaimed.rewritten.triple' rfl (.inr rfl)
    hdecode ⟨rfl, rfl, rfl⟩ rfl rfl rfl (hclaimed.no_result hcreated.no_result)
  exact ⟨db'', _, _, hstep ▸ hr.next _, h.rewritten.triple'.current?, rfl, rfl, rfl, rfl⟩

/-- The leased fixture is cancelled: its holder is told so, and so is any other node, which nothing
keeps it from. -/
theorem tellsHolderOnly_fixture :
    ∃ db e a, store.Reachable db ∧ db.current? fixtureRequest.evaluationId = some (e, a) ∧
      e.state = .cancelled ∧
      (judgeRenewLease (fixtureRenewal fixtureClaim.nodeId) db).1 = .ok .cancel ∧
      TellsHolderOnly db (fixtureRenewal fixtureClaim.nodeId) ∧
      ∀ nodeId ≠ fixtureClaim.nodeId, ¬TellsHolderOnly db (fixtureRenewal nodeId) := by
  obtain ⟨db, e, a, hr, hcurrent, hcancelled, hholds⟩ := exists_cancelled_lease
  have hexpires (nodeId : NodeId) : (fixtureRenewal nodeId).now.checkedAdd
      (fixtureRenewal nodeId).leasePolicy.leaseDuration = .ok ⟨6000, by decide⟩ :=
    UnixMillis.checkedAdd_eq_ok.mpr rfl
  have hholder : TellsHolderOnly db (fixtureRenewal fixtureClaim.nodeId) := by
    refine (tellsHolderOnly_iff hr (hexpires _)).mpr fun e' a' hcurrent' _ => ?_
    obtain ⟨rfl, rfl⟩ : e = e' ∧ a = a' := by simpa using hcurrent.symm.trans hcurrent'
    exact hholds
  refine ⟨db, e, a, hr, hcurrent, hcancelled,
    hholder.cancel.mpr ⟨e, a, hcurrent, hcancelled, hholds⟩, hholder,
    fun nodeId hother htells => ?_⟩
  obtain ⟨-, hnode, -⟩ :=
    (tellsHolderOnly_iff hr (hexpires nodeId)).mp htells e a hcurrent hcancelled
  exact hother (Option.some.inj (hnode.symm.trans hholds.2.1))

end Json
end OpenOJ
