import Mathlib.Data.Finset.Card
import OpenOJ.Storage.Completion

/-!
# What is waiting

The `backlog` of a declaration of capabilities is the attempts whose tasks a claim with it could
lease, and `ahead` those of them that come before a given one. To judge one is to claim it, to keep
the lease and to submit a result; whatever the times of the three transactions, this takes one
attempt out of the backlog, records its claim and its result, and leaves every other evaluation
alone (`Judged`). What a succession of such judgements leaves is said of the first and the last
database only (`Drained`): the oldest are done, in order, the rest waits as before, and nothing else
was touched.

* `Judged.backlog`, `Judged.other`, `Judged.kept`: what one judgement takes away, and what it
  leaves;
* `Judged.newClaim`, `Judged.newResultKey`: which operation ids and keys are still new after it;
* `Drained.judged`: judging the oldest, and then the `n` oldest of the rest, is judging the `n + 1`
  oldest, which is the step of every induction over judgements;
* `Drained.compatible_iff`: an attempt still waits exactly when at least as many were before it as
  have been judged, so what is still waiting can be told beforehand.

The lemmas about `Rewritten` are used for the three transactions of a judgement alike.
-/

namespace OpenOJ

open Outcome Relation

variable {db db₁ db' : Database} {declared : Option (List String)} {s t t' : TaskRow}
  {e e' f : EvaluationRow} {a a' b : AttemptRow}

/-! ### The backlog -/

/-- The attempts whose tasks are ready and require no more than is declared. -/
def backlog (db : Database) (declared : Option (List String)) : Finset AttemptId :=
  ((db.tasks.rows.filter fun t => t.state = .ready ∧ declares declared t = true).map
    (·.attemptId)).toFinset

theorem mem_backlog {k : AttemptId} :
    k ∈ backlog db declared ↔ ∃ t, Compatible db declared t ∧ t.attemptId = k := by
  simp only [backlog, List.mem_toFinset, List.mem_map, List.mem_filter, decide_eq_true_eq]
  constructor
  · rintro ⟨t, ⟨ht, hready, hdeclares⟩, rfl⟩
    exact ⟨t, ⟨Table.mem_rows.mp ht, hready, declares_iff.mp hdeclares⟩, rfl⟩
  · rintro ⟨t, ⟨ht, hready, hdeclared⟩, rfl⟩
    exact ⟨t, ⟨Table.mem_of_find? ht, hready, declares_iff.mpr hdeclared⟩, rfl⟩

theorem Compatible.mem_backlog (h : Compatible db declared t) : t.attemptId ∈ backlog db declared :=
  OpenOJ.mem_backlog.mpr ⟨t, h, rfl⟩

/-- The current attempt of an evaluation is waiting when its task is compatible. -/
theorem Triple.mem_backlog (h : Triple db e a t) :
    e.currentAttemptId ∈ backlog db declared ↔ Compatible db declared t := by
  rw [OpenOJ.mem_backlog]
  have hid : t.attemptId = e.currentAttemptId := Table.key_of_find? h.task
  constructor
  · rintro ⟨s, hs, heq⟩
    obtain rfl : s = t := Option.some.inj (hs.stored.symm.trans (heq ▸ h.task))
    exact hs
  · exact fun ht => ⟨t, ht, hid⟩

/-- The attempts of the backlog that come before a task. -/
def ahead (db : Database) (declared : Option (List String)) (t : TaskRow) : Finset AttemptId :=
  ((db.tasks.rows.filter fun s => s.state = .ready ∧ declares declared s = true ∧
    position s.createdAtMs s.attemptId < position t.createdAtMs t.attemptId).map
      (·.attemptId)).toFinset

theorem mem_ahead {k : AttemptId} :
    k ∈ ahead db declared t ↔ ∃ s, Compatible db declared s ∧
      position s.createdAtMs s.attemptId < position t.createdAtMs t.attemptId ∧
        s.attemptId = k := by
  simp only [ahead, List.mem_toFinset, List.mem_map, List.mem_filter, decide_eq_true_eq]
  constructor
  · rintro ⟨s, ⟨hs, hready, hdeclares, hlt⟩, rfl⟩
    exact ⟨s, ⟨Table.mem_rows.mp hs, hready, declares_iff.mp hdeclares⟩, hlt, rfl⟩
  · rintro ⟨s, ⟨hs, hready, hdeclared⟩, hlt, rfl⟩
    exact ⟨s, ⟨Table.mem_of_find? hs, hready, declares_iff.mpr hdeclared, hlt⟩, rfl⟩

/-- Only one of two tasks is before the other. -/
theorem IsOldest.lt (ht : IsOldest db declared t) (hs : Compatible db declared s)
    (hne : s.attemptId ≠ t.attemptId) :
    position t.createdAtMs t.attemptId < position s.createdAtMs s.attemptId := by
  rcases ht.least s hs with h | h
  · exact h
  · have hbytes : Text.bytes t.attemptId.value = Text.bytes s.attemptId.value :=
      congrArg Position.attemptId h
    exact absurd (OpaqueId.ext (Text.bytes_injective hbytes)).symm hne

/-! ### Rewriting one evaluation -/

/-- Two rewrites of the same evaluation are one. -/
theorem Rewritten.trans {e'' : EvaluationRow} {a'' : AttemptRow} {t'' : TaskRow}
    (h : Rewritten db db₁ e e' a a' t t') (h' : Rewritten db₁ db' e' e'' a' a'' t' t'') :
    Rewritten db db' e e'' a a'' t t'' where
  triple := h.triple
  evaluationId := h'.evaluationId.trans h.evaluationId
  currentAttemptId := h'.currentAttemptId.trans h.currentAttemptId
  attemptId := h'.attemptId.trans h.attemptId
  owner := h'.owner.trans h.owner
  number := h'.number.trans h.number
  payload := h'.payload.trans h.payload
  capabilities := h'.capabilities.trans h.capabilities
  createdAt := ⟨h'.createdAt.1.trans h.createdAt.1, h'.createdAt.2.1.trans h.createdAt.2.1,
    h'.createdAt.2.2.trans h.createdAt.2.2⟩
  evaluations := by rw [h'.evaluations, h.evaluations, h.evaluationId, Function.update_idem]
  attempts := by rw [h'.attempts, h.attempts, h.currentAttemptId, Function.update_idem]
  tasks := by rw [h'.tasks, h.tasks, h.currentAttemptId, Function.update_idem]

/-- A task that is not ready any more has left the backlog, and no other has. -/
theorem Rewritten.compatible_iff (h : Rewritten db db' e e' a a' t t')
    (hstate : t'.state ≠ .ready) :
    Compatible db' declared s ↔ Compatible db declared s ∧ s.attemptId ≠ e.currentAttemptId := by
  constructor
  · rintro ⟨hstored, hready, hdeclared⟩
    rw [h.tasks] at hstored
    by_cases hid : s.attemptId = e.currentAttemptId
    · rw [hid, Function.update_self] at hstored
      obtain rfl := Option.some.inj hstored
      exact absurd hready hstate
    · rw [Function.update_of_ne hid] at hstored
      exact ⟨⟨hstored, hready, hdeclared⟩, hid⟩
  · rintro ⟨⟨hstored, hready, hdeclared⟩, hid⟩
    exact ⟨by rw [h.tasks, Function.update_of_ne hid, hstored], hready, hdeclared⟩

theorem Rewritten.backlog (h : Rewritten db db' e e' a a' t t') (hstate : t'.state ≠ .ready) :
    backlog db' declared = (backlog db declared).erase e.currentAttemptId := by
  ext k
  simp only [Finset.mem_erase, mem_backlog, h.compatible_iff hstate]
  constructor
  · rintro ⟨s, ⟨hs, hne⟩, rfl⟩
    exact ⟨hne, s, hs, rfl⟩
  · rintro ⟨hne, s, hs, rfl⟩
    exact ⟨s, ⟨hs, hne⟩, rfl⟩

/-- No attempt records the operation id. -/
def NewClaim (db : Database) (operationId : ClaimOperationId) : Prop :=
  ∀ a ∈ db.attempts.rows, a.claimOperationId ≠ some operationId

/-- The first attempt of a store records none. -/
theorem Created.newClaim {request : EvaluationRequest} {payload : List UInt8} {now : Int}
    (h : Created .empty db request payload now) (operationId : ClaimOperationId) :
    NewClaim db operationId := by
  intro a ha
  have hrow := Table.mem_rows.mp ha
  rw [h.attempts] at hrow
  by_cases hid : Relation.key a = request.attemptId
  · rw [hid, Function.update_self] at hrow
    obtain rfl := Option.some.inj hrow
    exact nofun
  · rw [Function.update_of_ne hid] at hrow
    cases hrow

/-- An operation id stays new under a rewrite that does not record it. -/
theorem Rewritten.newClaim (h : Rewritten db db' e e' a a' t t') {operationId : ClaimOperationId}
    (hnew : NewClaim db operationId) (hne : a'.claimOperationId ≠ some operationId) :
    NewClaim db' operationId := by
  intro c hc
  have hrow : db'.attempts.find? c.attemptId = some c := Table.mem_rows.mp hc
  rw [h.attempts] at hrow
  by_cases hid : c.attemptId = e.currentAttemptId
  · rw [hid, Function.update_self] at hrow
    exact Option.some.inj hrow ▸ hne
  · rw [Function.update_of_ne hid] at hrow
    exact hnew c (Table.mem_of_find? hrow)

/-- And so does the key of a result. -/
theorem Rewritten.newResultKey (h : Rewritten db db' e e' a a' t t') {key : IdempotencyKey}
    (hnew : NewResultKey db key) (hne : e'.resultIdempotencyKey ≠ some key) :
    NewResultKey db' key := by
  intro c hc
  have hrow : db'.evaluations.find? c.evaluationId = some c := Table.mem_rows.mp hc
  rw [h.evaluations] at hrow
  by_cases hid : c.evaluationId = e.evaluationId
  · rw [hid, Function.update_self] at hrow
    exact Option.some.inj hrow ▸ hne
  · rw [Function.update_of_ne hid] at hrow
    exact hnew c (Table.mem_of_find? hrow)

/-! ### One judgement -/

section Judged

variable [Wire] {ε : Type} {execute : EvaluationRequest → Except ε EvaluationResult}

/-- The evaluation has ended with what `execute` makes of the request of its attempt. -/
structure EndsWith (execute : EvaluationRequest → Except ε EvaluationResult)
    (e : EvaluationRow) (a : AttemptRow) (result : EvaluationResult) (payload : List UInt8) :
    Prop where
  executed : ∃ request, decodeEvaluationRequest a.requestPayload = .ok request ∧
    execute request = .ok result
  encoded : encodeEvaluationResult result = .ok payload
  state : e.state = result.status.evaluationState
  result : e.terminalResult = some payload

/-- A waiting attempt was leased under one operation id, and its evaluation ended under the key of
another. -/
structure Judged (execute : EvaluationRequest → Except ε EvaluationResult)
    (db db' : Database) (t : TaskRow) (operationId : ClaimOperationId) (key : IdempotencyKey) :
    Prop where
  judged : ∃ e e' a a' t' result payload, Rewritten db db' e e' a a' t t' ∧
    EndsWith execute e' a' result payload ∧ e'.resultIdempotencyKey = some key ∧
      a'.claimOperationId = some operationId ∧ t'.state = result.status.taskState

omit [Wire] in
theorem EvaluationStatus.taskState_ne_ready (status : EvaluationStatus) :
    status.taskState ≠ .ready := by
  cases status <;> decide

variable {operationId : ClaimOperationId} {key : IdempotencyKey}

theorem Judged.compatible_iff (h : Judged execute db db' t operationId key) :
    Compatible db' declared s ↔ Compatible db declared s ∧ s.attemptId ≠ t.attemptId := by
  obtain ⟨e, e', a, a', t', result, payload, hrewritten, -, -, -, hstate⟩ := h.judged
  have hid : t.attemptId = e.currentAttemptId := Table.key_of_find? hrewritten.triple.task
  rw [hid]
  exact hrewritten.compatible_iff (hstate ▸ result.status.taskState_ne_ready)

theorem Judged.backlog (h : Judged execute db db' t operationId key) :
    backlog db' declared = (backlog db declared).erase t.attemptId := by
  obtain ⟨e, e', a, a', t', result, payload, hrewritten, -, -, -, hstate⟩ := h.judged
  have hid : t.attemptId = e.currentAttemptId := Table.key_of_find? hrewritten.triple.task
  rw [hid]
  exact hrewritten.backlog (hstate ▸ result.status.taskState_ne_ready)

/-- Every other evaluation keeps its rows. -/
theorem Judged.other (h : Judged execute db db' t operationId key) (hf : Triple db f b s)
    (hne : f.currentAttemptId ≠ t.attemptId) : Triple db' f b s := by
  obtain ⟨e, e', a, a', t', result, payload, hrewritten, -⟩ := h.judged
  have hid : t.attemptId = e.currentAttemptId := Table.key_of_find? hrewritten.triple.task
  refine (hrewritten.sameRows fun heq => hne ?_).triple hf
  obtain ⟨rfl, -, -⟩ := hrewritten.triple.unique hf heq
  exact hid.symm

/-- No evaluation is lost, nor its request. -/
theorem Judged.kept (h : Judged execute db db' t operationId key) (hf : Triple db f b s) :
    ∃ f' b' s', Triple db' f' b' s' ∧ f'.evaluationId = f.evaluationId ∧
      f'.currentAttemptId = f.currentAttemptId ∧ b'.requestPayload = b.requestPayload := by
  obtain ⟨e, e', a, a', t', result, payload, hrewritten, -⟩ := h.judged
  by_cases hid : f.evaluationId = e.evaluationId
  · obtain ⟨rfl, rfl, rfl⟩ := hrewritten.triple.unique hf hid
    exact ⟨e', a', t', hrewritten.triple', hrewritten.evaluationId, hrewritten.currentAttemptId,
      hrewritten.payload⟩
  · exact ⟨f, b, s, (hrewritten.sameRows hid).triple hf, rfl, rfl, rfl⟩

/-- Operation ids and keys other than those of the judgement stay new. -/
theorem Judged.newClaim (h : Judged execute db db' t operationId key) {other : ClaimOperationId}
    (hnew : NewClaim db other) (hne : other ≠ operationId) : NewClaim db' other := by
  obtain ⟨e, e', a, a', t', result, payload, hrewritten, -, -, hclaim, -⟩ := h.judged
  refine hrewritten.newClaim hnew ?_
  rw [hclaim]
  exact fun heq => hne (Option.some.inj heq).symm

theorem Judged.newResultKey (h : Judged execute db db' t operationId key) {other : IdempotencyKey}
    (hnew : NewResultKey db other) (hne : other ≠ key) : NewResultKey db' other := by
  obtain ⟨e, e', a, a', t', result, payload, hrewritten, -, hkey, -⟩ := h.judged
  refine hrewritten.newResultKey hnew ?_
  rw [hkey]
  exact fun heq => hne (Option.some.inj heq).symm

/-! ### Judging one after the other -/

/-- The `n` oldest of the waiting attempts were judged, or all where there were fewer: they have
left the backlog before any that is still in it, each with what `execute` makes of its request, and
no other evaluation was touched. -/
structure Drained (execute : EvaluationRequest → Except ε EvaluationResult)
    (declared : Option (List String)) (n : Nat) (db db' : Database) : Prop where
  waiting : ∀ t, Compatible db' declared t → Compatible db declared t
  card : (backlog db' declared).card = (backlog db declared).card - n
  ordered : ∀ s t, Compatible db declared s → s.attemptId ∉ backlog db' declared →
    Compatible db' declared t →
      position s.createdAtMs s.attemptId < position t.createdAtMs t.attemptId
  ended : ∀ t, Compatible db declared t → t.attemptId ∉ backlog db' declared →
    ∃ e a t' result payload, Triple db' e a t' ∧ e.currentAttemptId = t.attemptId ∧
      EndsWith execute e a result payload
  untouched : ∀ e a t, Triple db e a t →
    (e.currentAttemptId ∈ backlog db declared → e.currentAttemptId ∈ backlog db' declared) →
      Triple db' e a t
  kept : ∀ e a t, Triple db e a t → ∃ e' a' t', Triple db' e' a' t' ∧
    e'.evaluationId = e.evaluationId ∧ e'.currentAttemptId = e.currentAttemptId ∧
      a'.requestPayload = a.requestPayload

theorem Drained.zero : Drained execute declared 0 db db where
  waiting _ ht := ht
  card := rfl
  ordered _ _ hs hnot _ := absurd hs.mem_backlog hnot
  ended _ ht hnot := absurd ht.mem_backlog hnot
  untouched _ _ _ htriple _ := htriple
  kept e a t htriple := ⟨e, a, t, htriple, rfl, rfl, rfl⟩

/-- Where nothing is waiting one more makes no difference. -/
theorem Drained.idle {n : Nat} (hnone : ∀ t, ¬Compatible db declared t)
    (h : Drained execute declared n db db') : Drained execute declared (n + 1) db db' := by
  have hempty : OpenOJ.backlog db declared = ∅ := by
    refine Finset.eq_empty_of_forall_notMem fun k hk => ?_
    obtain ⟨t, ht, -⟩ := mem_backlog.mp hk
    exact hnone t ht
  refine { h with card := ?_ }
  rw [h.card, hempty, Finset.card_empty, Nat.zero_sub, Nat.zero_sub]

/-- **The oldest first**: judging the oldest and then the `n` oldest of the rest is judging the
`n + 1` oldest. -/
theorem Drained.judged {n : Nat} (ht : IsOldest db declared t)
    (hjudged : Judged execute db db₁ t operationId key) (h : Drained execute declared n db₁ db') :
    Drained execute declared (n + 1) db db' := by
  have hbacklog : OpenOJ.backlog db₁ declared = (OpenOJ.backlog db declared).erase t.attemptId :=
    hjudged.backlog
  have hwaiting : ∀ u, Compatible db' declared u →
      Compatible db declared u ∧ u.attemptId ≠ t.attemptId := fun u hu =>
    hjudged.compatible_iff.mp (h.waiting u hu)
  have hleft : t.attemptId ∉ OpenOJ.backlog db' declared := by
    intro hmem
    obtain ⟨u, hu, hid⟩ := mem_backlog.mp hmem
    exact (hwaiting u hu).2 hid
  refine ⟨fun u hu => (hwaiting u hu).1, ?_, fun s u hs hnot hu => ?_, fun s hs hnot => ?_,
    fun f b s hf hstays => ?_, fun f b s hf => ?_⟩
  · rw [h.card, hbacklog, Finset.card_erase_of_mem ht.compatible.mem_backlog, Nat.sub_sub,
      Nat.add_comm]
  · by_cases hid : s.attemptId = t.attemptId
    · -- the oldest is before whatever is left
      obtain rfl : s = t := Option.some.inj (hs.stored.symm.trans (hid ▸ ht.compatible.stored))
      exact ht.lt (hwaiting u hu).1 (hwaiting u hu).2
    · exact h.ordered s u (hjudged.compatible_iff.mpr ⟨hs, hid⟩) hnot hu
  · by_cases hid : s.attemptId = t.attemptId
    · -- it has ended, and the later judgements leave it alone
      obtain ⟨e, e', a, a', t', result, payload, hrewritten, hends, -⟩ := hjudged.judged
      have hcurrent : e'.currentAttemptId = t.attemptId :=
        hrewritten.currentAttemptId.trans (Table.key_of_find? hrewritten.triple.task).symm
      refine ⟨e', a', t', result, payload, h.untouched e' a' t' hrewritten.triple' fun hmem => ?_,
        hcurrent.trans hid.symm, hends⟩
      rw [hcurrent, hbacklog] at hmem
      exact absurd hmem (Finset.notMem_erase _ _)
    · exact h.ended s (hjudged.compatible_iff.mpr ⟨hs, hid⟩) hnot
  · have hne : f.currentAttemptId ≠ t.attemptId := by
      intro hid
      rw [hid] at hstays
      exact hleft (hstays ht.compatible.mem_backlog)
    refine h.untouched f b s (hjudged.other hf hne) fun hmem => hstays ?_
    rw [hbacklog] at hmem
    exact Finset.mem_of_mem_erase hmem
  · obtain ⟨f₁, b₁, s₁, hf₁, hid₁, hcurrent₁, hpayload₁⟩ := hjudged.kept hf
    obtain ⟨f', b', s', hf', hid', hcurrent', hpayload'⟩ := h.kept f₁ b₁ s₁ hf₁
    exact ⟨f', b', s', hf', hid'.trans hid₁, hcurrent'.trans hcurrent₁, hpayload'.trans hpayload₁⟩

omit [Wire] in
/-- An attempt that is in the backlog is there with its task. -/
theorem Compatible.of_mem_backlog
    (hwaiting : ∀ u, Compatible db' declared u → Compatible db declared u)
    (ht : Compatible db declared t) (hmem : t.attemptId ∈ OpenOJ.backlog db' declared) :
    Compatible db' declared t := by
  obtain ⟨u, hu, hid⟩ := OpenOJ.mem_backlog.mp hmem
  obtain rfl : u = t := Option.some.inj ((hwaiting u hu).stored.symm.trans (hid ▸ ht.stored))
  exact hu

/-- **First come, first served**: an attempt still waits exactly when at least as many were before
it as have been judged. -/
theorem Drained.compatible_iff {n : Nat} (h : Drained execute declared n db db')
    (ht : Compatible db declared t) :
    Compatible db' declared t ↔ n ≤ (ahead db declared t).card := by
  have hsubset : OpenOJ.backlog db' declared ⊆ OpenOJ.backlog db declared := by
    intro k hk
    obtain ⟨u, hu, rfl⟩ := mem_backlog.mp hk
    exact (h.waiting u hu).mem_backlog
  -- as many have left as were judged, unless the backlog is empty
  have hcard := h.card
  have hleft := Finset.card_sdiff_of_subset hsubset
  have hle := Finset.card_le_card hsubset
  constructor
  · intro hwaits
    have hpos := Finset.card_pos.mpr ⟨_, hwaits.mem_backlog⟩
    have hahead : OpenOJ.backlog db declared \ OpenOJ.backlog db' declared ⊆
        ahead db declared t := by
      intro k hk
      obtain ⟨hmem, hnot⟩ := Finset.mem_sdiff.mp hk
      obtain ⟨s, hs, rfl⟩ := mem_backlog.mp hmem
      exact mem_ahead.mpr ⟨s, hs, h.ordered s t hs hnot hwaits, rfl⟩
    have := Finset.card_le_card hahead
    omega
  · intro hn
    by_contra hwaits
    have hnot : t.attemptId ∉ OpenOJ.backlog db' declared := fun hmem =>
      hwaits (.of_mem_backlog h.waiting ht hmem)
    have hmem : t.attemptId ∈ OpenOJ.backlog db declared \ OpenOJ.backlog db' declared :=
      Finset.mem_sdiff.mpr ⟨ht.mem_backlog, hnot⟩
    have hahead : ahead db declared t ⊆
        (OpenOJ.backlog db declared \ OpenOJ.backlog db' declared).erase t.attemptId := by
      intro k hk
      obtain ⟨s, hs, hlt, rfl⟩ := mem_ahead.mp hk
      refine Finset.mem_erase.mpr ⟨fun heq => ?_, Finset.mem_sdiff.mpr ⟨hs.mem_backlog, ?_⟩⟩
      · obtain rfl : s = t := Option.some.inj (hs.stored.symm.trans (heq ▸ ht.stored))
        exact lt_irrefl _ hlt
      · intro hs'
        have hgt := h.ordered t s ht hnot (.of_mem_backlog h.waiting hs hs')
        exact lt_irrefl _ (hlt.trans hgt)
    have hlt := Finset.card_le_card hahead
    rw [Finset.card_erase_of_mem hmem] at hlt
    have hpos := Finset.card_pos.mpr ⟨_, hmem⟩
    omega

end Judged
end OpenOJ
