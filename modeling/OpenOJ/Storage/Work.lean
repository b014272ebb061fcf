import OpenOJ.Storage.FreshIds
import OpenOJ.Storage.Sweep

/-!
# All attempts of an evaluation are for the same work

What an evaluation is about is decided when it is created: whatever its attempts, each stored
request has the same problem, submission, runtime, plan, policy and capabilities
(`EvaluationRequest.semantics`).

What is shown once, for any part of a request, is how such an agreement spreads (`AttemptsAgree`):

* `AttemptsAgree.created`, `AttemptsAgree.rewritten`: a new evaluation has one attempt, and
  rewriting its rows leaves the requests alone;
* `AttemptsAgree.superseded`: a replacement that agrees with the request it replaces keeps all in
  agreement;
* `AttemptsAgree.next`: so a call keeps it when its replacements, if it makes any, do.

A replacement is compared with the attempt it replaces (`sameEvaluationSemantics_iff`). By
`attempts_agree` any two attempts of one evaluation, in every reachable store, hold requests that
differ in nothing but what names the attempt and the key.
-/

namespace OpenOJ

open Outcome Relation

/-- What a retry may not change: `same_evaluation_semantics` compares these. -/
def EvaluationRequest.semantics (request : EvaluationRequest) :
    EvaluationId × ProblemVersionRef × SubmissionRef × RuntimeRef × EvaluationPlan ×
      ResourcePolicy × List Capability :=
  (request.evaluationId, request.problemVersion, request.submission, request.runtime, request.plan,
    request.policy, request.requiredCapabilities)

theorem sameEvaluationSemantics_iff {current retry : EvaluationRequest} :
    sameEvaluationSemantics current retry = true ↔ current.semantics = retry.semantics := by
  simp only [sameEvaluationSemantics, Bool.and_eq_true, decide_eq_true_eq,
    EvaluationRequest.semantics, Prod.mk.injEq, and_assoc]

section Agreement

variable [Wire] {γ : Type} {part : EvaluationRequest → γ} {db db' : Database}

/-- The requests of any two attempts of one evaluation have this part in common. -/
def AttemptsAgree (part : EvaluationRequest → γ) (db : Database) : Prop :=
  ∀ k k' a b request request', db.attempts.find? k = some a → db.attempts.find? k' = some b →
    a.evaluationId = b.evaluationId → decodeEvaluationRequest a.requestPayload = .ok request →
      decodeEvaluationRequest b.requestPayload = .ok request' → part request = part request'

theorem AttemptsAgree.empty : AttemptsAgree part .empty := by
  intro k k' a b request request' ha
  cases ha

/-- An attempt that was there before, as far as its request goes. -/
def SameRequest (db : Database) (b : AttemptRow) : Prop :=
  ∃ k a, db.attempts.find? k = some a ∧ a.requestPayload = b.requestPayload ∧
    a.evaluationId = b.evaluationId

/-- **One new request** that agrees with the earlier ones of its evaluation keeps all in
agreement. -/
theorem AttemptsAgree.extend (h : AttemptsAgree part db) (added : EvaluationRequest)
    (hnew : ∀ k b, db'.attempts.find? k = some b → SameRequest db b ∨
      decodeEvaluationRequest b.requestPayload = .ok added ∧ b.evaluationId = added.evaluationId)
    (hagrees : ∀ k a request, db.attempts.find? k = some a → a.evaluationId = added.evaluationId →
      decodeEvaluationRequest a.requestPayload = .ok request → part request = part added) :
    AttemptsAgree part db' := by
  intro k k' a b request request' ha hb howner hdecode hdecode'
  rcases hnew k a ha with ⟨j, a', ha', hpayload, howner₁⟩ | ⟨hadded, howner₁⟩
  · rw [← hpayload] at hdecode
    rcases hnew k' b hb with ⟨j', b', hb', hpayload', howner₂⟩ | ⟨hadded', howner₂⟩
    · rw [← hpayload'] at hdecode'
      exact h j j' a' b' request request' ha' hb' (howner₁.trans (howner.trans howner₂.symm))
        hdecode hdecode'
    · obtain rfl := Except.ok.inj (hdecode'.symm.trans hadded')
      exact hagrees j a' request ha' (howner₁.trans (howner.trans howner₂)) hdecode
  · obtain rfl := Except.ok.inj (hdecode.symm.trans hadded)
    rcases hnew k' b hb with ⟨j', b', hb', hpayload', howner₂⟩ | ⟨hadded', -⟩
    · rw [← hpayload'] at hdecode'
      exact (hagrees j' b' request' hb' (howner₂.trans (howner.symm.trans howner₁)) hdecode').symm
    · obtain rfl := Except.ok.inj (hdecode'.symm.trans hadded')
      rfl

/-- Rewritten rows have the requests that they had. -/
theorem AttemptsAgree.rewritten {e e' : EvaluationRow} {a a' : AttemptRow} {t t' : TaskRow}
    (h : AttemptsAgree part db) (hw : Rewritten db db' e e' a a' t t') :
    AttemptsAgree part db' := by
  have hsame : ∀ k b, db'.attempts.find? k = some b → SameRequest db b := by
    intro k b hb
    by_cases hk : k = e.currentAttemptId
    · rw [hw.attempts, hk, Function.update_self] at hb
      obtain rfl := Option.some.inj hb
      exact ⟨_, a, hw.triple.attempt, hw.payload.symm, hw.owner.symm⟩
    · exact ⟨k, b, (hw.other hk).symm.trans hb, rfl, rfl⟩
  intro k k' b c request request' hb hc howner hdecode hdecode'
  obtain ⟨j, b', hb', hpayload, howner₁⟩ := hsame k b hb
  obtain ⟨j', c', hc', hpayload', howner₂⟩ := hsame k' c hc
  rw [← hpayload] at hdecode
  rw [← hpayload'] at hdecode'
  exact h j j' b' c' request request' hb' hc' (howner₁.trans (howner.trans howner₂.symm)) hdecode
    hdecode'

/-- A new evaluation has one attempt. -/
theorem AttemptsAgree.created (hl : LosslessRequests) (hc : Coupled db)
    (h : AttemptsAgree part db) {request : EvaluationRequest} {payload : List UInt8} {now : Int}
    (hpayload : encodeEvaluationRequest request = .ok payload)
    (hcreated : Created db db' request payload now) : AttemptsAgree part db' := by
  refine h.extend request (fun k b hb => ?_) fun k a _ ha howner => ?_
  · rw [hcreated.attempts] at hb
    by_cases hk : k = request.attemptId
    · rw [hk, Function.update_self] at hb
      obtain rfl := Option.some.inj hb
      exact .inr ⟨decode_of_encode hl hpayload, rfl⟩
    · rw [Function.update_of_ne hk] at hb
      exact .inl ⟨k, b, hb, rfl, rfl⟩
  · -- an older attempt has an older owner
    have hsome := hc.owned k a ha
    rw [howner, hcreated.newEvaluation] at hsome
    cases hsome

/-- A replacement whose request has the part of the one that it replaces. -/
theorem AttemptsAgree.superseded (hl : LosslessRequests) (h : AttemptsAgree part db)
    {e : EvaluationRow} {a : AttemptRow} {t : TaskRow} {current request : EvaluationRequest}
    {payload : List UInt8} {now : Int}
    (hdecode : decodeEvaluationRequest a.requestPayload = .ok current)
    (hpayload : encodeEvaluationRequest request = .ok payload)
    (hpart : part current = part request)
    (hsuperseded : Superseded db db' e a t request payload now) : AttemptsAgree part db' := by
  refine h.extend request (fun k b hb => ?_) fun k b request' hb howner hdecode' => ?_
  · rw [hsuperseded.attempts] at hb
    by_cases hnew : k = request.attemptId
    · rw [hnew, Function.update_self] at hb
      obtain rfl := Option.some.inj hb
      exact .inr ⟨decode_of_encode hl hpayload, rfl⟩
    · rw [Function.update_of_ne hnew] at hb
      by_cases hk : k = e.currentAttemptId
      · rw [hk, Function.update_self] at hb
        obtain rfl := Option.some.inj hb
        exact .inl ⟨_, a, hsuperseded.triple.attempt, rfl, rfl⟩
      · rw [Function.update_of_ne hk] at hb
        exact .inl ⟨k, b, hb, rfl, rfl⟩
  · have howner' : b.evaluationId = a.evaluationId :=
      howner.trans (hsuperseded.evaluationId_eq.trans hsuperseded.triple.owned.symm)
    exact (h _ _ b a request' current hb hsuperseded.triple.attempt howner' hdecode' hdecode).trans
      hpart

/-- **Agreement spreads**: a call keeps it when its replacements, if it makes any, do. -/
theorem AttemptsAgree.next (hl : LosslessRequests) (hc : Coupled db) (h : AttemptsAgree part db)
    {op : Operation} (hrecovers : ∀ now, op.recoveryTime? = some now →
      AttemptsAgree part (store.next op db)) : AttemptsAgree part (store.next op db) := by
  have hperformed := performed hc op
  generalize store.next op db = db' at hperformed hrecovers
  cases hperformed with
  | idle => exact h
  | created hpayload _ hcreated => exact h.created hl hc hpayload hcreated
  | claimed _ _ _ hclaimed => exact h.rewritten hclaimed.rewritten
  | renewed _ _ _ _ hrenewed =>
    obtain ⟨t, htriple⟩ := hrenewed.triple hc.linked
    exact h.rewritten (hrenewed.rewritten htriple)
  | recovered hop => exact hrecovers _ hop
  | submitted _ _ hfinished => exact h.rewritten hfinished.rewritten
  | cancelled _ hfinished => exact h.rewritten hfinished.rewritten

end Agreement

/-! ### Every run -/

section Runs

variable [Wire] {db : Database}

/-- **The same work.** In every reachable store, any two attempts of one evaluation hold requests
that differ in nothing but what names the attempt and the calls that asked for it. -/
theorem attempts_agree (hl : LosslessRequests) (hr : store.Reachable db) {k k' : AttemptId}
    {a b : AttemptRow} (ha : db.attempts.find? k = some a) (hb : db.attempts.find? k' = some b)
    (howner : a.evaluationId = b.evaluationId) :
    ∃ request request', decodeEvaluationRequest a.requestPayload = .ok request ∧
      decodeEvaluationRequest b.requestPayload = .ok request' ∧
        request.semantics = request'.semantics := by
  have hagree : AttemptsAgree EvaluationRequest.semantics db := by
    refine hr.induction AttemptsAgree.empty fun db op hr h => ?_
    have hc := coupled_of_reachable hr
    refine h.next hl hc fun now hop => ?_
    have hperformed := performed hc op
    generalize store.next op db = db' at hperformed
    cases hperformed with
    | recovered _ hrecovered =>
      refine (recoveries_preserve ?_ hrecovered hc h).2
      rintro db₁ db₂ - ⟨e, a, t, current, request, payload, hdecode, hsame, hpayload, hs⟩ h
      exact h.superseded hl hdecode hpayload (sameEvaluationSemantics_iff.mp hsame) hs
    | idle => exact h
    | claimed hclaim =>
      rw [Operation.not_claim_of_recovery hop] at hclaim
      cases hclaim
    | submitted hsubmit =>
      rw [Operation.not_recovery_of_submission hsubmit] at hop
      cases hop
    | _ => cases hop
  have hg := legible_of_reachable hl hr
  obtain ⟨request, hdecode, -⟩ := hg k a ha
  obtain ⟨request', hdecode', -⟩ := hg k' b hb
  exact ⟨request, request', hdecode, hdecode',
    hagree k k' a b request request' ha hb howner hdecode hdecode'⟩

end Runs

/-! ### Two attempts -/

section Json

attribute [local instance] jsonWire

/-- The fixture and the attempt that replaced it when its lease had expired. -/
theorem attempts_agree_fixture :
    ∃ db a b, store.Reachable db ∧ db.attempts.find? fixtureRequest.attemptId = some a ∧
      db.attempts.find? fixtureNext.attemptId = some b ∧ a.state = .expired ∧ b.state = .queued ∧
        ∃ request request', decodeEvaluationRequest a.requestPayload = .ok request ∧
          decodeEvaluationRequest b.requestPayload = .ok request' ∧
            request.semantics = request'.semantics := by
  obtain ⟨payload, payload', db, db', hr, -, -, h⟩ := exists_retried_fixture
  have hold : db'.attempts.find? fixtureRequest.attemptId = some _ := h.old_attempt
  exact ⟨db', _, _, hr, hold, h.triple'.attempt, rfl, rfl,
    attempts_agree (WireType.json_lossless _) hr hold h.triple'.attempt rfl⟩

end Json
end OpenOJ
