import OpenOJ.Storage.Sweep

/-!
# The store and the domain's life cycles

The store writes the state columns itself and never asks `transition_to`. Still, whatever a
transaction writes is a move the domain accepts (`FollowsLifeCycles`): a row stays as it was or
moves along one pair, and a new attempt is queued. The rows it writes are those of one evaluation
(`OneEvaluation`); the two together are a `LifeCycleStep`.

* `Rewritten.followsLifeCycles`, `Created.followsLifeCycles`, `Superseded.followsLifeCycles`: the
  effects, one by one;
* `recoveries_followsLifeCycles`: a sweep is a sequence of such transactions, and even taken as a
  whole it moves each row along one accepted pair;
* `refinesLifeCycles`: every call follows the life cycles (`RefinesLifeCycles`);
* `store_refines_lifeCycles`: so does every call that comes after a run, and over the run as a whole
  each row moves along a chain of accepted pairs (`MovesAlong`).
-/

namespace OpenOJ

open Outcome Relation

variable {db db' : Database}

/-! ### Moves -/

/-- Every stored evaluation and attempt keeps its state or moves along a pair the domain
accepts, and every new attempt is queued. -/
structure FollowsLifeCycles (db db' : Database) : Prop where
  evaluation : ∀ id e, db.evaluations.find? id = some e →
    ∃ e', db'.evaluations.find? id = some e' ∧ (e'.state = e.state ∨ e.state.Moves e'.state)
  attempt : ∀ k a, db.attempts.find? k = some a →
    ∃ a', db'.attempts.find? k = some a' ∧ (a'.state = a.state ∨ a.state.Moves a'.state)
  inserted : ∀ k a, db.attempts.find? k = none → db'.attempts.find? k = some a →
    a.state = .queued

/-- Of any two evaluations, one has the same rows: at most one was written. -/
def OneEvaluation (db db' : Database) : Prop :=
  ∀ id other, id ≠ other → SameRows id db db' ∨ SameRows other db db'

theorem OneEvaluation.of_others {id : EvaluationId}
    (h : ∀ other, other ≠ id → SameRows other db db') : OneEvaluation db db' := by
  intro first second hne
  by_cases hid : first = id
  · exact .inr (h second fun heq => hne (hid.trans heq.symm))
  · exact .inl (h first hid)

theorem FollowsLifeCycles.refl (db : Database) : FollowsLifeCycles db db where
  evaluation _ e he := ⟨e, he, .inl rfl⟩
  attempt _ a ha := ⟨a, ha, .inl rfl⟩
  inserted k a hnone ha := by
    rw [hnone] at ha
    cases ha

/-! ### Transactions -/

section Rewritten

variable {e e' : EvaluationRow} {a a' : AttemptRow} {t t' : TaskRow}

/-- A rewrite that moves its evaluation and its attempt along accepted pairs follows the life
cycles. -/
theorem Rewritten.followsLifeCycles (h : Rewritten db db' e e' a a' t t')
    (he : e'.state = e.state ∨ e.state.Moves e'.state)
    (ha : a'.state = a.state ∨ a.state.Moves a'.state) : FollowsLifeCycles db db' where
  evaluation id f hf := by
    by_cases hid : id = e.evaluationId
    · obtain rfl := Option.some.inj (hf.symm.trans (hid ▸ h.triple.evaluation))
      exact ⟨e', by rw [h.evaluations, hid, Function.update_self], he⟩
    · exact ⟨f, by rw [h.evaluations, Function.update_of_ne hid, hf], .inl rfl⟩
  attempt k b hb := by
    by_cases hk : k = e.currentAttemptId
    · obtain rfl := Option.some.inj (hb.symm.trans (hk ▸ h.triple.attempt))
      exact ⟨a', by rw [h.attempts, hk, Function.update_self], ha⟩
    · exact ⟨b, (h.other hk).trans hb, .inl rfl⟩
  inserted k b hnone hb := by
    by_cases hk : k = e.currentAttemptId
    · rw [hk, h.triple.attempt] at hnone
      cases hnone
    · rw [h.other hk, hnone] at hb
      cases hb

end Rewritten

section Created

variable {request : EvaluationRequest} {payload : List UInt8} {now : Int}

theorem Created.followsLifeCycles (h : Created db db' request payload now) :
    FollowsLifeCycles db db' where
  evaluation id f hf := by
    refine ⟨f, ?_, .inl rfl⟩
    rw [h.evaluations, Function.update_of_ne, hf]
    rintro rfl
    rw [h.newEvaluation] at hf
    cases hf
  attempt k b hb := by
    refine ⟨b, ?_, .inl rfl⟩
    rw [h.attempts, Function.update_of_ne, hb]
    rintro rfl
    rw [h.newAttempt] at hb
    cases hb
  inserted k b hnone hb := by
    rw [h.attempts] at hb
    by_cases hk : k = request.attemptId
    · rw [hk, Function.update_self] at hb
      exact Option.some.inj hb ▸ rfl
    · rw [Function.update_of_ne hk, hnone] at hb
      cases hb

theorem Superseded.followsLifeCycles {e : EvaluationRow} {a : AttemptRow} {t : TaskRow}
    (h : Superseded db db' e a t request payload now) : FollowsLifeCycles db db' where
  evaluation id f hf := by
    by_cases hid : id = e.evaluationId
    · obtain rfl := Option.some.inj (hf.symm.trans (hid ▸ h.triple.evaluation))
      refine ⟨f.requeue request.attemptId now, ?_, .inr ?_⟩
      · rw [h.evaluations, hid, Function.update_self]
      · rw [h.evaluationLeased]
        rfl
    · exact ⟨f, by rw [h.evaluations, Function.update_of_ne hid, hf], .inl rfl⟩
  attempt k b hb := by
    by_cases hk : k = e.currentAttemptId
    · obtain rfl := Option.some.inj (hb.symm.trans (hk ▸ h.triple.attempt))
      refine ⟨b.move .expired now, hk ▸ h.self, .inr ?_⟩
      rw [h.attemptLeased]
      rfl
    · exact ⟨b, (h.other hb hk).1, .inl rfl⟩
  inserted k b hnone hb := by
    rw [h.attempts] at hb
    by_cases hnew : k = request.attemptId
    · rw [hnew, Function.update_self] at hb
      exact Option.some.inj hb ▸ rfl
    · have hk : k ≠ e.currentAttemptId := by
        rintro rfl
        rw [h.triple.attempt] at hnone
        cases hnone
      rw [Function.update_of_ne hnew, Function.update_of_ne hk, hnone] at hb
      cases hb

end Created

/-! ### Sweeps -/

section Calls

variable [Wire]

/-- What a sweep does to the state of an evaluation: nothing, or it queues a leased one again. -/
theorem recoveries_evaluation {now : UnixMillis} (hc : Coupled db)
    (h : ReflTransGen (Recovery now) db db') {id : EvaluationId} {e : EvaluationRow}
    (he : db.evaluations.find? id = some e) :
    ∃ e', db'.evaluations.find? id = some e' ∧
      (e'.state = e.state ∨ e.state = .leased ∧ e'.state = .queued) := by
  refine (recoveries_preserve (P := fun db' => ∃ e', db'.evaluations.find? id = some e' ∧
    (e'.state = e.state ∨ e.state = .leased ∧ e'.state = .queued)) ?_ h hc
      ⟨e, he, .inl rfl⟩).2
  rintro db₁ db₂ - ⟨f, b, t, current, request, payload, -, -, -, h⟩ ⟨e', he', hstate⟩
  by_cases hid : id = f.evaluationId
  · obtain rfl := Option.some.inj (he'.symm.trans (hid ▸ h.triple.evaluation))
    refine ⟨e'.requeue request.attemptId now.value, ?_, .inr ⟨?_, rfl⟩⟩
    · rw [h.evaluations, hid, Function.update_self]
    · -- an evaluation the sweep has queued is not replaced again
      rcases hstate with hstate | ⟨-, hqueued⟩
      · rw [← hstate, h.evaluationLeased]
      · rw [h.evaluationLeased] at hqueued
        cases hqueued
  · exact ⟨e', by rw [h.evaluations, Function.update_of_ne hid, he'], hstate⟩

/-- A sweep moves each row along one accepted pair. -/
theorem recoveries_followsLifeCycles {now : UnixMillis} (hc : Coupled db)
    (h : ReflTransGen (Recovery now) db db') : FollowsLifeCycles db db' where
  evaluation id e he := by
    obtain ⟨e', he', hstate | ⟨hleased, hqueued⟩⟩ := recoveries_evaluation hc h he
    · exact ⟨e', he', .inl hstate⟩
    · exact ⟨e', he', .inr (by rw [hleased, hqueued]; rfl)⟩
  attempt k a ha := by
    rcases recoveries_attempt hc h ha with ⟨hsame, -⟩ | ⟨hleased, -, hmoved⟩
    · exact ⟨a, hsame, .inl rfl⟩
    · refine ⟨_, hmoved, .inr ?_⟩
      rw [hleased]
      rfl
  inserted _ _ := recoveries_new hc h

/-! ### Calls -/

omit [Wire] in
/-- One transaction: the rows of one evaluation move along accepted pairs. -/
structure LifeCycleStep (db db' : Database) : Prop where
  follows : FollowsLifeCycles db db'
  one : OneEvaluation db db'

omit [Wire] in
theorem LifeCycleStep.refl (db : Database) : LifeCycleStep db db :=
  ⟨.refl db, fun id _ _ => .inl (.refl id db)⟩

omit [Wire] in
theorem Rewritten.lifeCycleStep {e e' : EvaluationRow} {a a' : AttemptRow} {t t' : TaskRow}
    (h : Rewritten db db' e e' a a' t t') (he : e'.state = e.state ∨ e.state.Moves e'.state)
    (ha : a'.state = a.state ∨ a.state.Moves a'.state) : LifeCycleStep db db' :=
  ⟨h.followsLifeCycles he ha, .of_others fun _ hne => h.sameRows hne⟩

theorem Recovery.lifeCycleStep {now : UnixMillis} (h : Recovery now db db') :
    LifeCycleStep db db' := by
  obtain ⟨e, a, t, current, request, payload, -, -, -, h⟩ := h
  exact ⟨h.followsLifeCycles, .of_others fun _ hne => h.sameRows hne⟩

omit [Wire] in
/-- A terminal status is accepted of every leased evaluation and attempt. -/
private theorem moves_of_leased (status : EvaluationStatus) :
    EvaluationState.leased.Moves status.evaluationState ∧
      AttemptState.leased.Moves status.attemptState := by
  cases status <;> exact ⟨rfl, rfl⟩

/-- A call that is no recovery is one transaction. -/
private theorem Performed.lifeCycleStep (hc : Coupled db) {op : Operation}
    (h : Performed db op db') (hop : op.recoveryTime? = none) : LifeCycleStep db db' := by
  cases h with
  | idle => exact .refl db
  | created _ _ h => exact ⟨h.followsLifeCycles, .of_others fun _ hne => h.sameRows hne⟩
  | claimed _ _ _ h =>
    refine h.rewritten.lifeCycleStep (.inr ?_) (.inr ?_)
    · rw [h.evaluationQueued]
      rfl
    · rw [h.attemptQueued]
      rfl
  | renewed _ _ _ _ h =>
    obtain ⟨t, htriple⟩ := h.triple hc.linked
    exact (h.rewritten htriple).lifeCycleStep (.inl rfl) (.inl rfl)
  | recovered hrecovery => rw [hop] at hrecovery; cases hrecovery
  | @submitted _ command _ _ _ _ _ _ hfenced h =>
    obtain ⟨he, ha⟩ := moves_of_leased command.result.status
    refine h.rewritten.lifeCycleStep (.inr ?_) (.inr ?_)
    · rw [hfenced.evaluationLeased]
      exact he
    · rw [hfenced.attemptLeased]
      exact ha
  | cancelled _ h =>
    -- a cancellation is accepted of queued rows and of leased ones
    refine h.rewritten.lifeCycleStep (.inr ?_) (.inr ?_)
    · rcases h.evaluationOpen with hopen | hopen <;> rw [hopen] <;> rfl
    · rcases h.attemptOpen with hopen | hopen <;> rw [hopen] <;> rfl

/-- What the life cycles say of one call. -/
structure RefinesLifeCycles (db : Database) (op : Operation) : Prop where
  follows : FollowsLifeCycles db (store.next op db)
  one : (∀ now entropy fuel, op ≠ .recoverExpired now entropy fuel) →
    OneEvaluation db (store.next op db)
  transactions : ReflTransGen LifeCycleStep db (store.next op db)

/-- **Every call follows the life cycles.** -/
theorem refinesLifeCycles (hc : Coupled db) (op : Operation) : RefinesLifeCycles db op := by
  have hstep : (∀ now entropy fuel, op ≠ .recoverExpired now entropy fuel) →
      LifeCycleStep db (store.next op db) := by
    intro hsweep
    cases hop : op.recoveryTime? with
    | none => exact (performed hc op).lifeCycleStep hc hop
    | some now =>
      cases op with
      | retryExpired command =>
        rw [next_retryExpired]
        rcases retryExpired_performed hc.linked command with heq | h
        · rw [heq]
          exact .refl db
        · exact h.lifeCycleStep
      | recoverExpired now entropy fuel => exact absurd rfl (hsweep now entropy fuel)
      | _ => cases hop
  by_cases hsweep : ∀ now entropy fuel, op ≠ .recoverExpired now entropy fuel
  · exact ⟨(hstep hsweep).follows, fun _ => (hstep hsweep).one, .single (hstep hsweep)⟩
  · simp only [ne_eq, not_forall, not_not] at hsweep
    obtain ⟨now, entropy, fuel, rfl⟩ := hsweep
    have h : ReflTransGen (Recovery now) db (store.next (.recoverExpired now entropy fuel) db) := by
      simp only [Machine.next, store, perform, Prod.map_snd, id_eq, recoverExpired,
        toI64_unixMillis]
      exact recoverLoop_performed fuel 0 0 db hc
    exact ⟨recoveries_followsLifeCycles hc h, fun hother => absurd rfl (hother now entropy fuel),
      ReflTransGen.mono (fun _ _ => Recovery.lifeCycleStep) _ _ h⟩

/-! ### Runs -/

/-- The states of the rows stored at one point of a run lead to their states at a later point by
moves the domain accepts. -/
structure MovesAlong (db db' : Database) : Prop where
  evaluation : ∀ id e, db.evaluations.find? id = some e →
    ∃ e', db'.evaluations.find? id = some e' ∧ ReflTransGen EvaluationState.Moves e.state e'.state
  attempt : ∀ k a, db.attempts.find? k = some a →
    ∃ a', db'.attempts.find? k = some a' ∧ ReflTransGen AttemptState.Moves a.state a'.state

omit [Wire] in
theorem MovesAlong.refl (db : Database) : MovesAlong db db :=
  ⟨fun _ e he => ⟨e, he, .refl⟩, fun _ a ha => ⟨a, ha, .refl⟩⟩

omit [Wire] in
theorem MovesAlong.trans {db₁ db₂ db₃ : Database} (h : MovesAlong db₁ db₂)
    (h' : MovesAlong db₂ db₃) : MovesAlong db₁ db₃ where
  evaluation id e he := by
    obtain ⟨f, hf, hmoves⟩ := h.evaluation id e he
    obtain ⟨g, hg, hmoves'⟩ := h'.evaluation id f hf
    exact ⟨g, hg, hmoves.trans hmoves'⟩
  attempt k a ha := by
    obtain ⟨b, hb, hmoves⟩ := h.attempt k a ha
    obtain ⟨c, hc, hmoves'⟩ := h'.attempt k b hb
    exact ⟨c, hc, hmoves.trans hmoves'⟩

omit [Wire] in
theorem FollowsLifeCycles.movesAlong (h : FollowsLifeCycles db db') : MovesAlong db db' where
  evaluation id e he := by
    obtain ⟨e', he', hstate | hmove⟩ := h.evaluation id e he
    · exact ⟨e', he', hstate ▸ .refl⟩
    · exact ⟨e', he', .single hmove⟩
  attempt k a ha := by
    obtain ⟨a', ha', hstate | hmove⟩ := h.attempt k a ha
    · exact ⟨a', ha', hstate ▸ .refl⟩
    · exact ⟨a', ha', .single hmove⟩

/-- **The store refines the life cycles.** After every run, whatever call comes next moves each
evaluation and each attempt along a pair the domain accepts, inserts attempts queued, and writes
the rows of one evaluation, or, if it is a sweep, those of one evaluation a transaction; so the
states a row goes through over a run are a path of accepted moves. -/
theorem store_refines_lifeCycles (ops : List Operation) :
    (∀ op, RefinesLifeCycles (store.run ops) op) ∧
      ∀ after, MovesAlong (store.run ops) (store.run (ops ++ after)) := by
  have hr := store.reachable_run ops
  refine ⟨refinesLifeCycles (coupled_of_reachable hr), fun after => ?_⟩
  rw [Machine.run_append]
  exact Machine.run_related MovesAlong.refl MovesAlong.trans
    (fun _ op hr => (refinesLifeCycles (coupled_of_reachable hr) op).follows.movesAlong) hr after

end Calls
end OpenOJ
