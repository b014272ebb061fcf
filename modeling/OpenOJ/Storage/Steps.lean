import OpenOJ.Storage.Calls

/-!
# What a call does to one row

`AttemptStep` lists what one call can do to a stored attempt: nothing, grant its lease, renew it, or
end the attempt. Each case comes with what the caller was told, so that an account which is kept of
the answers can be compared with the rows.

* `attempt_step`: what a call does to a stored attempt is one of these;
* `attempt_new`: and what it does to none is to insert a queued one;
* `Grants.queued`, `Renews.leased`: a lease is granted on a queued attempt and renewed on a leased
  one;
* `AttemptStep.ended_eq`: an attempt that has ended stays as it is;
* `Effect.frozen`, `frozen_runFrom`: and so do all rows of an evaluation that has ended, under every
  effect and over every run.

A sweep replaces one attempt after the other; what it does to a single one is found by induction
over its replacements (`recoveries_attempt`, `recoveries_new`).
-/

namespace OpenOJ

open Outcome Relation

/-- Whether an attempt can still be claimed, renewed or ended. -/
def AttemptState.isOpen : AttemptState → Bool
  | .queued | .leased => true
  | .completed | .failed | .cancelled | .expired => false

section Steps

variable [Wire] {db db' : Database}

/-! ### Which calls claim and submit -/

theorem Operation.not_claim_of_submission {op : Operation} {command : SubmitResult}
    (h : op.submission? db = some command) : op.claim? db = none := by
  cases op <;> simp_all [Operation.submission?, Operation.claim?]

theorem Operation.not_claim_of_recovery {op : Operation} {now : UnixMillis}
    (h : op.recoveryTime? = some now) : op.claim? db = none := by
  cases op <;> simp_all [Operation.recoveryTime?, Operation.claim?]

omit [Wire] in
theorem Operation.not_recovery_of_submission {op : Operation} {command : SubmitResult}
    (h : op.submission? db = some command) : op.recoveryTime? = none := by
  cases op <;> simp_all [Operation.submission?, Operation.recoveryTime?]

/-- Only calls without a claim, a submission or a sweep can renew. -/
theorem not_renews_of {op : Operation} {k : AttemptId} {x : UnixMillis}
    (h : (op.claim? db).isSome ∨ (op.submission? db).isSome ∨ op.recoveryTime?.isSome) :
    ¬Renews db op k x := by
  rintro ⟨command, rfl, -⟩
  simp [Operation.claim?, Operation.submission?, Operation.recoveryTime?] at h

theorem Grants.unique {op : Operation} {lease lease' : TaskLease} (h : Grants db op lease)
    (h' : Grants db op lease') : lease = lease' := by
  have := h.2.symm.trans h'.2
  simpa using this

/-! ### Attempts under a sweep -/

omit [Wire] in
/-- Replacing an attempt leaves every other attempt, and the evaluations it is current in,
alone. -/
theorem Superseded.other {e : EvaluationRow} {a b : AttemptRow} {t : TaskRow}
    {request : EvaluationRequest} {payload : List UInt8} {now : Int} {k : AttemptId}
    (h : Superseded db db' e a t request payload now) (hb : db.attempts.find? k = some b)
    (hk : k ≠ e.currentAttemptId) :
    db'.attempts.find? k = some b ∧
      ∀ id f, db.evaluations.find? id = some f → f.currentAttemptId = k →
        db'.evaluations.find? id = some f := by
  have hnew : k ≠ request.attemptId := by
    rintro rfl
    rw [h.newAttempt] at hb
    cases hb
  refine ⟨by rw [h.attempts, Function.update_of_ne hnew, Function.update_of_ne hk, hb], ?_⟩
  intro id f hf hcurrent
  rw [h.evaluations, Function.update_of_ne, hf]
  rintro rfl
  obtain rfl := Option.some.inj (hf.symm.trans h.triple.evaluation)
  exact hk hcurrent.symm

omit [Wire] in
/-- The replaced attempt itself is expired and no longer current. -/
theorem Superseded.self {e : EvaluationRow} {a : AttemptRow} {t : TaskRow}
    {request : EvaluationRequest} {payload : List UInt8} {now : Int}
    (h : Superseded db db' e a t request payload now) :
    db'.attempts.find? e.currentAttemptId = some (a.move .expired now) := by
  rw [h.attempts, Function.update_of_ne h.attemptId_ne.symm, Function.update_self]

/-- What a sweep does to one attempt: nothing, or its lease had expired and it is replaced. -/
theorem recoveries_attempt {now : UnixMillis} {k : AttemptId} {a : AttemptRow}
    (hc : Coupled db) (h : ReflTransGen (Recovery now) db db')
    (ha : db.attempts.find? k = some a) :
    (db'.attempts.find? k = some a ∧
      ∀ id e, db.evaluations.find? id = some e → e.currentAttemptId = k →
        db'.evaluations.find? id = some e) ∨
      (a.state = .leased ∧ (∃ expiry, a.leaseExpiresAtMs = some expiry ∧ expiry < now.value) ∧
        db'.attempts.find? k = some (a.move .expired now.value)) := by
  refine (recoveries_preserve (P := fun db' =>
    (db'.attempts.find? k = some a ∧
      ∀ id e, db.evaluations.find? id = some e → e.currentAttemptId = k →
        db'.evaluations.find? id = some e) ∨
      (a.state = .leased ∧ (∃ expiry, a.leaseExpiresAtMs = some expiry ∧ expiry < now.value) ∧
        db'.attempts.find? k = some (a.move .expired now.value))) ?_ h hc
      (.inl ⟨ha, fun _ _ he _ => he⟩)).2
  rintro db₁ db₂ - ⟨e, b, t, current, request, payload, -, -, -, h⟩ (⟨hk, hsame⟩ | ⟨hl, hx, hk⟩)
  · by_cases heq : k = e.currentAttemptId
    · subst heq
      obtain rfl := Option.some.inj (hk.symm.trans h.triple.attempt)
      exact .inr ⟨h.attemptLeased, h.expired, h.self⟩
    · obtain ⟨hk', hsame'⟩ := h.other hk heq
      exact .inl ⟨hk', fun id f hf hcurrent => hsame' id f (hsame id f hf hcurrent) hcurrent⟩
  · have heq : k ≠ e.currentAttemptId := by
      rintro rfl
      have hleased := h.attemptLeased
      obtain rfl := Option.some.inj (hk.symm.trans h.triple.attempt)
      cases hleased
    exact .inr ⟨hl, hx, (h.other hk heq).1⟩

/-- An attempt that a sweep adds is queued. -/
theorem recoveries_new {now : UnixMillis} {k : AttemptId} {a : AttemptRow} (hc : Coupled db)
    (h : ReflTransGen (Recovery now) db db') (hnone : db.attempts.find? k = none)
    (ha : db'.attempts.find? k = some a) : a.state = .queued := by
  refine (recoveries_preserve (P := fun db' => ∀ a, db'.attempts.find? k = some a →
    a.state = .queued) ?_ h hc fun a ha => ?_).2 a ha
  · rintro db₁ db₂ - ⟨e, b, t, current, request, payload, -, -, -, h⟩ hqueued a ha
    rw [h.attempts] at ha
    by_cases hnew : k = request.attemptId
    · rw [hnew, Function.update_self] at ha
      exact Option.some.inj ha ▸ rfl
    · rw [Function.update_of_ne hnew] at ha
      by_cases heq : k = e.currentAttemptId
      · subst heq
        have := hqueued b h.triple.attempt
        rw [h.attemptLeased] at this
        cases this
      · rw [Function.update_of_ne heq] at ha
        exact hqueued a ha
  · rw [hnone] at ha
    cases ha

/-! ### Attempts under a call -/

/-- What one call can do to a stored attempt. -/
inductive AttemptStep (db : Database) (op : Operation) (a : AttemptRow) : AttemptRow → Prop where
  | kept (hgrant : ∀ lease, Grants db op lease → lease.request.attemptId ≠ a.attemptId)
      (hrenew : ∀ x, ¬Renews db op a.attemptId x) : AttemptStep db op a a
  | claimed {command operationId lease} (hclaim : op.claim? db = some (command, operationId))
      (hgrant : Grants db op lease) (hid : lease.request.attemptId = a.attemptId)
      (hqueued : a.state = .queued)
      (hexpires : lease.expiresAt.value = command.now.value + command.leaseDuration.value) :
      AttemptStep db op a
        (a.claim lease.nodeId lease.leaseToken lease.expiresAt.value operationId command.now.value)
  | renewed {command x} (hop : op = .judgeRenewLease command)
      (hrenew : Renews db op a.attemptId x) (hleased : a.state = .leased)
      (hexpires : x.value = command.now.value + command.leasePolicy.leaseDuration.value) :
      AttemptStep db op a (a.renew x.value command.now.value)
  | ended {state now} (hopen : a.state.isOpen) (hstate : state.isOpen = false)
      (hgrant : ∀ lease, ¬Grants db op lease) (hrenew : ∀ k x, ¬Renews db op k x) :
      AttemptStep db op a (a.move state now)

omit [Wire] in
/-- Rewriting the rows of one evaluation leaves other attempts alone. -/
theorem Rewritten.other {e e' : EvaluationRow} {a a' : AttemptRow} {t t' : TaskRow}
    {k : AttemptId} (h : Rewritten db db' e e' a a' t t') (hk : k ≠ e.currentAttemptId) :
    db'.attempts.find? k = db.attempts.find? k := by
  rw [h.attempts, Function.update_of_ne hk]

omit [Wire] in
private theorem Rewritten.self {e e' : EvaluationRow} {a a' : AttemptRow} {t t' : TaskRow}
    (h : Rewritten db db' e e' a a' t t') :
    db'.attempts.find? e.currentAttemptId = some a' := by
  rw [h.attempts, Function.update_self]

omit [Wire] in
private theorem finished_isOpen {e : EvaluationRow} {a : AttemptRow} {t : TaskRow}
    {status : EvaluationStatus} {payload : List UInt8} {key : IdempotencyKey} {now : Int}
    (h : Finished db db' e a t status payload key now) :
    a.state.isOpen ∧ status.attemptState.isOpen = false := by
  constructor
  · rcases h.attemptOpen with h | h <;> rw [h] <;> rfl
  · cases status <;> rfl

/-- What the end of an evaluation does to a stored attempt. -/
private theorem AttemptStep.of_finished {op : Operation} {e : EvaluationRow} {a b : AttemptRow}
    {t : TaskRow} {status : EvaluationStatus} {payload : List UInt8} {key : IdempotencyKey}
    {now : Int} (h : Finished db db' e b t status payload key now)
    (hgrant : ∀ lease, ¬Grants db op lease) (hrenew : ∀ k x, ¬Renews db op k x)
    (ha : db.attempts.find? a.attemptId = some a) :
    ∃ a', db'.attempts.find? a.attemptId = some a' ∧ AttemptStep db op a a' := by
  by_cases heq : a.attemptId = e.currentAttemptId
  · obtain rfl := Option.some.inj (ha.symm.trans (heq ▸ h.triple.attempt))
    obtain ⟨hopen, hstate⟩ := finished_isOpen h
    exact ⟨_, heq ▸ h.rewritten.self, .ended hopen hstate hgrant hrenew⟩
  · exact ⟨a, (h.rewritten.other heq).trans ha,
      .kept (fun lease hlease => absurd hlease (hgrant lease)) (hrenew _)⟩

/-- **What a call does to a stored attempt.** -/
theorem attempt_step (hc : Coupled db) (op : Operation) {k : AttemptId} {a : AttemptRow}
    (ha : db.attempts.find? k = some a) :
    ∃ a', (store.next op db).attempts.find? k = some a' ∧ AttemptStep db op a a' := by
  obtain rfl : a.attemptId = k := Table.key_of_find? ha
  have hperformed := performed hc op
  generalize store.next op db = db' at hperformed
  cases hperformed with
  | idle hclaim hrenew =>
    exact ⟨a, ha, .kept (fun lease hlease => absurd hlease (hclaim lease)) (hrenew _)⟩
  | @created command payload _ _ _ h =>
    have hne : a.attemptId ≠ command.request.attemptId := by
      intro heq
      rw [heq, h.newAttempt] at ha
      cases ha
    refine ⟨a, by rw [h.attempts, Function.update_of_ne hne, ha], .kept ?_ ?_⟩
    · exact fun lease hlease => absurd hlease (not_grants_of rfl lease)
    · rintro x ⟨_, heq, -⟩
      cases heq
  | @claimed _ command operationId lease e b t _ hclaim hanswer hgranted h =>
    have hgrants : Grants db op lease := ⟨by rw [hclaim]; rfl, hanswer⟩
    have hid : lease.request.attemptId = b.attemptId := hgranted.names.2.1
    -- the granted attempt is the one whose row is rewritten
    by_cases heq : a.attemptId = e.currentAttemptId
    · obtain rfl := Option.some.inj (ha.symm.trans (heq ▸ h.triple.attempt))
      refine ⟨_, heq ▸ h.rewritten.self, ?_⟩
      rw [← hgranted.nodeId, ← hgranted.leaseToken]
      exact .claimed hclaim hgrants hid h.attemptQueued hgranted.expiresAt
    · refine ⟨a, (h.rewritten.other heq).trans ha, .kept ?_ ?_⟩
      · intro lease' hlease' hid'
        obtain rfl := hgrants.unique hlease'
        exact heq (hid'.symm.trans (hid.trans h.triple.attemptId))
      · exact fun x => not_renews_of (.inl (by rw [hclaim]; rfl))
  | @renewed command e b expiresAt _ hanswer hid hholds hexpires h =>
    obtain ⟨t, htriple⟩ := h.triple hc.linked
    by_cases heq : a.attemptId = e.currentAttemptId
    · obtain rfl := Option.some.inj (ha.symm.trans (heq ▸ h.attempt))
      exact ⟨_, heq ▸ (h.rewritten htriple).self,
        .renewed rfl ⟨command, rfl, hholds.1.symm, hanswer⟩ h.attemptLeased hexpires⟩
    · refine ⟨a, ((h.rewritten htriple).other heq).trans ha, .kept ?_ ?_⟩
      · exact fun lease hlease => absurd hlease (not_grants_of rfl lease)
      · rintro x ⟨command', hop, hattempt, -⟩
        obtain rfl := Operation.judgeRenewLease.inj hop
        exact heq (hattempt.symm.trans (hholds.1.symm.trans htriple.attemptId))
  | @recovered _ now _ hop h =>
    have hgrant : ∀ lease, ¬Grants db op lease :=
      not_grants_of (Operation.not_claim_of_recovery hop)
    have hrenew : ∀ k x, ¬Renews db op k x := fun k x =>
      not_renews_of (.inr (.inr (by rw [hop]; rfl)))
    rcases recoveries_attempt hc h ha with ⟨hsame, -⟩ | ⟨hleased, -, hmoved⟩
    · exact ⟨a, hsame, .kept (fun lease hlease => absurd hlease (hgrant lease)) (hrenew _)⟩
    · exact ⟨_, hmoved, .ended (by rw [hleased]; rfl) rfl hgrant hrenew⟩
  | @submitted _ command e b t payload _ hop hfenced h =>
    refine AttemptStep.of_finished h (not_grants_of (Operation.not_claim_of_submission hop))
      (fun k x => not_renews_of (.inr (.inl ?_))) ha
    rw [hop]
    rfl
  | @cancelled command e b t payload _ hid h =>
    refine AttemptStep.of_finished h (not_grants_of rfl) ?_ ha
    rintro k x ⟨_, heq, -⟩
    cases heq

/-- A lease is granted for a stored, queued attempt. -/
theorem Grants.queued (hc : Coupled db) {op : Operation} {lease : TaskLease}
    (h : Grants db op lease) :
    ∃ a, db.attempts.find? lease.request.attemptId = some a ∧ a.state = .queued := by
  have hperformed := performed hc op
  generalize store.next op db = db' at hperformed
  cases hperformed with
  | idle hclaim => exact absurd h (hclaim lease)
  | created => exact absurd h (not_grants_of rfl lease)
  | claimed hclaim hanswer hgranted h' =>
    obtain rfl := h.unique ⟨by rw [hclaim]; rfl, hanswer⟩
    have hid := hgranted.names.2.1.trans h'.triple.attemptId
    exact ⟨_, hid ▸ h'.triple.attempt, h'.attemptQueued⟩
  | renewed => exact absurd h (not_grants_of rfl lease)
  | recovered hop => exact absurd h (not_grants_of (Operation.not_claim_of_recovery hop) lease)
  | submitted hop => exact absurd h (not_grants_of (Operation.not_claim_of_submission hop) lease)
  | cancelled => exact absurd h (not_grants_of rfl lease)

/-- A renewal moves the expiry of a stored, leased attempt. -/
theorem Renews.leased (hc : Coupled db) {op : Operation} {k : AttemptId} {x : UnixMillis}
    (h : Renews db op k x) : ∃ a, db.attempts.find? k = some a ∧ a.state = .leased := by
  have hperformed := performed hc op
  generalize store.next op db = db' at hperformed
  obtain ⟨command, rfl, rfl, hanswer⟩ := id h
  cases hperformed with
  | idle _ hrenew => exact absurd h (hrenew _ _)
  | claimed hclaim => cases hclaim
  | renewed _ _ hholds _ h' =>
    obtain ⟨t, htriple⟩ := h'.triple hc.linked
    have hid := hholds.1.symm.trans htriple.attemptId
    exact ⟨_, hid ▸ h'.attempt, h'.attemptLeased⟩
  | recovered hop => cases hop
  | submitted hop => cases hop

/-- An attempt that a call adds is queued and was neither granted nor renewed by it. -/
theorem attempt_new (hc : Coupled db) (op : Operation) {k : AttemptId} {a : AttemptRow}
    (hnone : db.attempts.find? k = none) (ha : (store.next op db).attempts.find? k = some a) :
    a.state = .queued := by
  have hperformed := performed hc op
  generalize store.next op db = db' at hperformed ha
  have hnot : ∀ {e e' a' b t t'}, ¬Rewritten db db' e e' a' b t t' := by
    intro e e' a' b t t' h
    by_cases hk : k = e.currentAttemptId
    · rw [hk, h.triple.attempt] at hnone
      cases hnone
    · rw [h.other hk, hnone] at ha
      cases ha
  cases hperformed with
  | idle => rw [hnone] at ha; cases ha
  | @created command payload _ _ _ h =>
    rw [h.attempts] at ha
    by_cases hk : k = command.request.attemptId
    · rw [hk, Function.update_self] at ha
      exact Option.some.inj ha ▸ rfl
    · rw [Function.update_of_ne hk, hnone] at ha
      cases ha
  | claimed _ _ _ h => exact absurd h.rewritten hnot
  | renewed _ _ _ _ h =>
    obtain ⟨t, htriple⟩ := h.triple hc.linked
    exact absurd (h.rewritten htriple) hnot
  | recovered _ h => exact recoveries_new hc h hnone ha
  | submitted _ _ h => exact absurd h.rewritten hnot
  | cancelled _ h => exact absurd h.rewritten hnot

/-- An attempt that has ended stays as it is. -/
theorem AttemptStep.ended_eq {op : Operation} {a a' : AttemptRow}
    (h : AttemptStep db op a a') (hended : a.state.isOpen = false) : a' = a := by
  cases h with
  | kept => rfl
  | claimed _ _ _ hqueued => rw [hqueued] at hended; cases hended
  | renewed _ _ hleased => rw [hleased] at hended; cases hended
  | ended hopen => rw [hended] at hopen; cases hopen

/-! ### Evaluations that have ended -/

omit [Wire] in
/-- **Ended evaluations are frozen**: no effect touches their rows. -/
theorem Effect.frozen (hc : Coupled db) (h : Effect db db') {f : EvaluationRow} {b : AttemptRow}
    {s : TaskRow} (hf : Triple db f b s) (hended : f.state.isTerminal) : Triple db' f b s := by
  have hopen : ∀ {e a t}, Triple db e a t → e.state.isTerminal = false →
      f.evaluationId ≠ e.evaluationId := by
    intro e a t he hstate heq
    have hfe := hf.evaluation
    rw [heq, he.evaluation] at hfe
    rw [Option.some.inj hfe, hended] at hstate
    cases hstate
  cases h with
  | created h => exact h.other_triple hf
  | claimed h =>
    exact (h.rewritten.sameRows (hopen h.triple (by rw [h.evaluationQueued]; rfl))).triple hf
  | renewed h =>
    obtain ⟨t, htriple⟩ := h.triple hc.linked
    refine ((h.rewritten htriple).sameRows (hopen htriple ?_)).triple hf
    rw [h.evaluationLeased]
    rfl
  | superseded h =>
    exact (h.sameRows (hopen h.triple (by rw [h.evaluationLeased]; rfl))).triple hf
  | finished h =>
    refine (h.rewritten.sameRows (hopen h.triple ?_)).triple hf
    rcases h.evaluationOpen with hstate | hstate <;> rw [hstate] <;> rfl

omit [Wire] in
theorem frozen_of_effects (hc : Coupled db) (h : ReflTransGen Effect db db') {f : EvaluationRow}
    {b : AttemptRow} {s : TaskRow} (hf : Triple db f b s) (hended : f.state.isTerminal) :
    Triple db' f b s := by
  induction h with
  | refl => exact hf
  | tail hinit hlast ih => exact hlast.frozen (hc.effects hinit) ih hended

/-- No run touches the rows of an evaluation that has ended. -/
theorem frozen_runFrom (hr : store.Reachable db) {f : EvaluationRow} {b : AttemptRow}
    {s : TaskRow} (hf : Triple db f b s) (hended : f.state.isTerminal)
    (ops : List Operation) : Triple (store.runFrom db ops) f b s :=
  Machine.run_preserves
    (fun _ op hr hf => frozen_of_effects (coupled_of_reachable hr)
      (performed (coupled_of_reachable hr) op).effects hf hended) hr hf ops

end Steps
end OpenOJ
