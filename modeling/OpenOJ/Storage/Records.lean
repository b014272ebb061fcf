import OpenOJ.Storage.Steps

/-!
# What the rows record

Two invariants that let an operation succeed, not only do no harm:

* `Legible`: every stored attempt holds the text of a request that names it, and its task the
  request's capabilities;
* `Timed`: an evaluation is not younger than its current attempt, and a lease ends after the attempt
  was last written; so at a time later than a lease's end every row of its evaluation may be
  rewritten (`Timed.created_lt`).

Times are kept by every effect (`Timed.effect`) and texts by every call (`Legible.next`); so both
hold of every reachable database (`timed_of_reachable`, `legible_of_reachable`).

The first section says which triples there are after an effect: after a rewriting, the rewritten one
and the others as before (`Rewritten.triple_cases`); after a creation or a replacement, the new one
and the others (`Created.triple_cases`, `Superseded.triple_cases`).
-/

namespace OpenOJ

open Outcome Relation

variable {db db' : Database}

/-! ### Triples after an effect -/

section Triples

variable {e e' f : EvaluationRow} {a a' b : AttemptRow} {t t' s : TaskRow}

/-- Two triples of one evaluation are one. -/
theorem Triple.unique (h : Triple db e a t) (h' : Triple db f b s)
    (hid : f.evaluationId = e.evaluationId) : f = e ∧ b = a ∧ s = t := by
  obtain rfl := Option.some.inj ((hid ▸ h'.evaluation).symm.trans h.evaluation)
  exact ⟨rfl, Option.some.inj (h'.attempt.symm.trans h.attempt),
    Option.some.inj (h'.task.symm.trans h.task)⟩

/-- A triple after a rewrite is the rewritten one or was there before. -/
theorem Rewritten.triple_cases (h : Rewritten db db' e e' a a' t t') (hf : Triple db' f b s) :
    (f = e' ∧ b = a' ∧ s = t') ∨ Triple db f b s := by
  by_cases hid : f.evaluationId = e.evaluationId
  · exact .inl (h.triple'.unique hf (hid.trans h.evaluationId.symm))
  · have hne : f.currentAttemptId ≠ e.currentAttemptId := by
      intro heq
      have hb := hf.attempt
      rw [heq, h.attempts, Function.update_self] at hb
      obtain rfl := Option.some.inj hb
      exact hid (hf.owned.symm.trans (h.owner.trans h.triple.owned))
    obtain ⟨hevaluation, hattempt, htask, howned⟩ := hf
    rw [h.evaluations, Function.update_of_ne hid] at hevaluation
    rw [h.attempts, Function.update_of_ne hne] at hattempt
    rw [h.tasks, Function.update_of_ne hne] at htask
    exact .inr ⟨hevaluation, hattempt, htask, howned⟩

variable {request : EvaluationRequest} {payload : List UInt8} {now : Int}

theorem Created.triple_cases (h : Created db db' request payload now) (hf : Triple db' f b s) :
    (f = evaluationRow request payload now ∧ b = attemptRow request payload now ∧
      s = taskRow request now) ∨ Triple db f b s := by
  by_cases hid : f.evaluationId = request.evaluationId
  · exact .inl (h.triple.unique hf hid)
  · have hne : f.currentAttemptId ≠ request.attemptId := by
      intro heq
      have hb := hf.attempt
      rw [heq, h.attempts, Function.update_self] at hb
      obtain rfl := Option.some.inj hb
      exact hid hf.owned.symm
    obtain ⟨hevaluation, hattempt, htask, howned⟩ := hf
    rw [h.evaluations, Function.update_of_ne hid] at hevaluation
    rw [h.attempts, Function.update_of_ne hne] at hattempt
    rw [h.tasks, Function.update_of_ne hne] at htask
    exact .inr ⟨hevaluation, hattempt, htask, howned⟩

theorem Superseded.triple_cases (h : Superseded db db' e a t request payload now)
    (hf : Triple db' f b s) :
    (f = e.requeue request.attemptId now ∧ b = attemptRow request payload now ∧
      s = taskRow request now) ∨ Triple db f b s := by
  by_cases hid : f.evaluationId = e.evaluationId
  · exact .inl (h.triple'.unique hf hid)
  · have hnew : f.currentAttemptId ≠ request.attemptId := by
      intro heq
      have hb := hf.attempt
      rw [heq, h.attempts, Function.update_self] at hb
      obtain rfl := Option.some.inj hb
      exact hid (hf.owned.symm.trans h.evaluationId_eq)
    have hold : f.currentAttemptId ≠ e.currentAttemptId := by
      intro heq
      have hb := hf.attempt
      rw [heq, h.self] at hb
      obtain rfl := Option.some.inj hb
      exact hid (hf.owned.symm.trans h.triple.owned)
    obtain ⟨hevaluation, hattempt, htask, howned⟩ := hf
    rw [h.evaluations, Function.update_of_ne hid] at hevaluation
    rw [h.attempts, Function.update_of_ne hnew, Function.update_of_ne hold] at hattempt
    rw [h.tasks, Function.update_of_ne hnew, Function.update_of_ne hold] at htask
    exact .inr ⟨hevaluation, hattempt, htask, howned⟩

end Triples

/-! ### Times -/

/-- The rows of an evaluation were created in order, and a lease ends after the attempt was
last written. -/
structure Timed (db : Database) : Prop where
  created : ∀ e a t, Triple db e a t →
    e.createdAtMs ≤ a.createdAtMs ∧ t.createdAtMs = a.createdAtMs
  leased : ∀ e a t, Triple db e a t → a.state = .leased →
    ∃ expiry, a.leaseExpiresAtMs = some expiry ∧ a.updatedAtMs < expiry

theorem Timed.empty : Timed .empty where
  created _ _ _ h := by cases h.evaluation
  leased _ _ _ h := by cases h.evaluation

private theorem Timed.rewritten {e e' : EvaluationRow} {a a' : AttemptRow} {t t' : TaskRow}
    (ht : Timed db) (h : Rewritten db db' e e' a a' t t')
    (hleased : a'.state = .leased →
      ∃ expiry, a'.leaseExpiresAtMs = some expiry ∧ a'.updatedAtMs < expiry) : Timed db' where
  created f b s hf := by
    rcases h.triple_cases hf with ⟨rfl, rfl, rfl⟩ | hf
    · obtain ⟨he, ha, ht'⟩ := h.createdAt
      rw [he, ha, ht']
      exact ht.created _ _ _ h.triple
    · exact ht.created f b s hf
  leased f b s hf := by
    rcases h.triple_cases hf with ⟨rfl, rfl, rfl⟩ | hf
    · exact hleased
    · exact ht.leased f b s hf

/-- **Times stay in order** under every effect. -/
theorem Timed.effect (ht : Timed db) (hl : Linked db) (h : Effect db db') : Timed db' := by
  cases h with
  | created h =>
    refine ⟨fun f b s hf => ?_, fun f b s hf hleased => ?_⟩
    · rcases h.triple_cases hf with ⟨rfl, rfl, rfl⟩ | hf
      · exact ⟨Int.le_refl _, rfl⟩
      · exact ht.created f b s hf
    · rcases h.triple_cases hf with ⟨rfl, rfl, rfl⟩ | hf
      · cases hleased
      · exact ht.leased f b s hf hleased
  | claimed h => exact ht.rewritten h.rewritten fun _ => ⟨_, rfl, h.expiry_gt⟩
  | renewed h =>
    obtain ⟨t, htriple⟩ := h.triple hl
    exact ht.rewritten (h.rewritten htriple) fun _ => ⟨_, rfl, h.expiry_gt⟩
  | @superseded e a t request payload now h =>
    refine ⟨fun f b s hf => ?_, fun f b s hf hleased => ?_⟩
    · rcases h.triple_cases hf with ⟨rfl, rfl, rfl⟩ | hf'
      · -- the evaluation's row was checked when it was rewritten
        have hvalid : (e.requeue request.attemptId now).Valid :=
          Table.check_of_find? h.triple'.evaluation
        exact ⟨hvalid.timeBound.2.1, rfl⟩
      · exact ht.created f b s hf'
    · rcases h.triple_cases hf with ⟨rfl, rfl, rfl⟩ | hf
      · cases hleased
      · exact ht.leased f b s hf hleased
  | @finished e a t status payload key now h =>
    refine ht.rewritten h.rewritten fun hleased => ?_
    cases status <;> cases hleased

/-- A lease that ended before `now` leaves the rows of its evaluation older than `now`. -/
theorem Timed.created_lt {now : Int} (ht : Timed db) {e : EvaluationRow} {a : AttemptRow}
    {t : TaskRow} (htriple : Triple db e a t) (hleased : a.state = .leased) {expiry : Int}
    (hexpiry : a.leaseExpiresAtMs = some expiry) (hlt : expiry < now) :
    e.createdAtMs < now ∧ a.createdAtMs < now ∧ t.createdAtMs < now := by
  obtain ⟨hle, heq⟩ := ht.created e a t htriple
  obtain ⟨expiry', hexpiry', hupdated⟩ := ht.leased e a t htriple hleased
  obtain rfl := Option.some.inj (hexpiry'.symm.trans hexpiry)
  have hvalid : a.Valid := Table.check_of_find? htriple.attempt
  have := hvalid.timeBound.2.1
  omega

/-! ### Texts -/

section Legible

variable [Wire]

/-- Every attempt holds the text of a request that names it, and its task the capabilities of
that request. -/
def Legible (db : Database) : Prop :=
  ∀ k a, db.attempts.find? k = some a →
    ∃ request, decodeEvaluationRequest a.requestPayload = .ok request ∧ request.Names a ∧
      ∀ t, db.tasks.find? k = some t →
        t.requiredCapabilities = request.requiredCapabilities.map (·.value)

theorem Legible.empty : Legible .empty := by
  intro k a h
  cases h

private theorem Legible.rewritten {e e' : EvaluationRow} {a a' : AttemptRow} {t t' : TaskRow}
    (hg : Legible db) (h : Rewritten db db' e e' a a' t t') : Legible db' := by
  intro k b hb
  rw [h.attempts] at hb
  rw [h.tasks]
  by_cases hk : k = e.currentAttemptId
  · obtain ⟨request, hdecode, hnames, hcapabilities⟩ := hg _ _ h.triple.attempt
    rw [hk, Function.update_self] at hb
    obtain rfl := Option.some.inj hb
    refine ⟨request, h.payload ▸ hdecode, ?_, ?_⟩
    · exact ⟨hnames.1.trans h.owner.symm, hnames.2.1.trans h.attemptId.symm,
        hnames.2.2.trans h.number.symm⟩
    · intro s hs
      rw [hk, Function.update_self] at hs
      obtain rfl := Option.some.inj hs
      exact h.capabilities.trans (hcapabilities t h.triple.task)
  · rw [Function.update_of_ne hk] at hb ⊢
    exact hg k b hb

private theorem legible_attemptRow {request : EvaluationRequest} {payload : List UInt8}
    (hl : LosslessRequests) (h : encodeEvaluationRequest request = .ok payload) (now : Int) :
    decodeEvaluationRequest (attemptRow request payload now).requestPayload = .ok request ∧
      request.Names (attemptRow request payload now) ∧
        ∀ t, some (taskRow request now) = some t →
          t.requiredCapabilities = request.requiredCapabilities.map (·.value) := by
  refine ⟨decode_of_encode hl h, ⟨rfl, rfl, rfl⟩, ?_⟩
  rintro t ht
  obtain rfl := Option.some.inj ht
  rfl

private theorem Legible.recovery {now : UnixMillis} (hl : LosslessRequests) (hg : Legible db)
    (h : Recovery now db db') : Legible db' := by
  obtain ⟨e, a, t, current, request, payload, -, -, hpayload, h⟩ := h
  intro k b hb
  rw [h.attempts] at hb
  rw [h.tasks]
  by_cases hnew : k = request.attemptId
  · rw [hnew, Function.update_self] at hb ⊢
    obtain rfl := Option.some.inj hb
    exact ⟨request, legible_attemptRow hl hpayload _⟩
  · rw [Function.update_of_ne hnew] at hb ⊢
    by_cases hk : k = e.currentAttemptId
    · obtain ⟨request', hdecode, hnames, hcapabilities⟩ := hg _ _ h.triple.attempt
      rw [hk, Function.update_self] at hb ⊢
      obtain rfl := Option.some.inj hb
      refine ⟨request', hdecode, hnames, fun s hs => ?_⟩
      obtain rfl := Option.some.inj hs
      exact hcapabilities t h.triple.task
    · rw [Function.update_of_ne hk] at hb ⊢
      exact hg k b hb

/-- **Texts stay legible** under every call. -/
theorem Legible.next (hl : LosslessRequests) (hc : Coupled db) (hg : Legible db)
    (op : Operation) : Legible (store.next op db) := by
  have hperformed := performed hc op
  generalize store.next op db = db' at hperformed
  cases hperformed with
  | idle => exact hg
  | @created command payload _ hpayload _ h =>
    intro k b hb
    rw [h.attempts] at hb
    rw [h.tasks]
    by_cases hk : k = command.request.attemptId
    · rw [hk, Function.update_self] at hb ⊢
      obtain rfl := Option.some.inj hb
      exact ⟨_, legible_attemptRow hl hpayload _⟩
    · rw [Function.update_of_ne hk] at hb ⊢
      exact hg k b hb
  | claimed _ _ _ h => exact hg.rewritten h.rewritten
  | renewed _ _ _ _ h =>
    obtain ⟨t, htriple⟩ := h.triple hc.linked
    exact hg.rewritten (h.rewritten htriple)
  | recovered _ h =>
    exact (recoveries_preserve (fun _ _ _ h hg => Legible.recovery hl hg h) h hc hg).2
  | submitted _ _ h => exact hg.rewritten h.rewritten
  | cancelled _ h => exact hg.rewritten h.rewritten

/-! ### Every reachable database -/

/-- Times are in order in every reachable database. -/
theorem timed_of_reachable (h : store.Reachable db) : Timed db := by
  refine h.induction Timed.empty fun db op hr ht => ?_
  have hc := coupled_of_reachable hr
  have heffects := (performed hc op).effects
  generalize store.next op db = db' at heffects
  induction heffects with
  | refl => exact ht
  | tail hinit hlast ih => exact ih.effect (hc.effects hinit).linked hlast

/-- Texts are legible in every reachable database. -/
theorem legible_of_reachable (hl : LosslessRequests) (h : store.Reachable db) : Legible db :=
  h.induction Legible.empty fun _ op hr hg => hg.next hl (coupled_of_reachable hr) op

end Legible
end OpenOJ
