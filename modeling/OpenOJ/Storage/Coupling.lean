import OpenOJ.Storage.Spec

/-!
# The coupling invariant

The evaluation, its current attempt and the attempt's task are three rows that only the store's code
keeps in step. `EvaluationCoupled` says in what way they are, for one evaluation:

* the states of the three are one of five combinations (`Phase`);
* the attempts are numbered consecutively and the current one has the greatest number;
* every other attempt, and its task, has expired;
* a leased attempt has a node, a token and an expiry, and a result is stored exactly when the
  evaluation has ended.

`Coupled` says this of every evaluation, and that no attempt or task is without its owner and no
attempt has more of a lease than its state allows (`AttemptRow.Tidy`).

Three of the five effects rewrite the rows of one evaluation in place (`Rewritten`) and are handled
at once (`Coupled.rewritten`); the other two add an attempt (`Coupled.created`,
`Coupled.superseded`). What an effect does to evaluations that it does not name is said once
(`SameRows`, `EvaluationCoupled.frame`). `Coupled.effect` puts them together: coupling is kept by
every effect.
-/

namespace OpenOJ

/-! ### The invariant -/

/-- The states of an evaluation, its current attempt and its current task that go together. -/
inductive Phase : EvaluationState → AttemptState → TaskState → Prop where
  | queued : Phase .queued .queued .ready
  | leased : Phase .leased .leased .leased
  | completed : Phase .completed .completed .completed
  | failed : Phase .failed .failed .completed
  | cancelled : Phase .cancelled .cancelled .cancelled

/-- Whether an evaluation has ended. -/
def EvaluationState.isTerminal : EvaluationState → Bool
  | .queued | .leased => false
  | .completed | .failed | .cancelled => true

theorem EvaluationStatus.phase (status : EvaluationStatus) :
    Phase status.evaluationState status.attemptState status.taskState := by
  cases status
  · exact .completed
  · exact .failed
  · exact .cancelled

@[simp]
theorem EvaluationStatus.evaluationState_isTerminal (status : EvaluationStatus) :
    status.evaluationState.isTerminal = true := by
  cases status <;> rfl

/-- A stored attempt of an evaluation. -/
def Database.AttemptOf (db : Database) (id : EvaluationId) (b : AttemptRow) : Prop :=
  db.attempts.find? b.attemptId = some b ∧ b.evaluationId = id

/-- The columns of a lease are empty while an attempt is queued, set while it is leased, and
an operation id is only ever recorded with its node. -/
structure AttemptRow.Tidy (a : AttemptRow) : Prop where
  queued : a.state = .queued → a.nodeId = none ∧ a.leaseToken = none ∧
    a.leaseExpiresAtMs = none ∧ a.claimOperationId = none
  leased : a.state = .leased → a.nodeId.isSome ∧ a.leaseToken.isSome ∧
    a.leaseExpiresAtMs.isSome
  claimed : a.claimOperationId.isSome → a.nodeId.isSome

/-- The rows of one evaluation are in step: `a` is its current attempt and `t` the attempt's
task. -/
structure EvaluationCoupled (db : Database) (e : EvaluationRow) (a : AttemptRow)
    (t : TaskRow) : Prop where
  triple : Triple db e a t
  phase : Phase e.state a.state t.state
  /-- The numbers of the evaluation's attempts are consecutive, and the current attempt has
  the greatest. -/
  numbers : ∃ first, ∀ n : Int,
    (∃ b, db.AttemptOf e.evaluationId b ∧ b.attemptNumber = n) ↔
      first ≤ n ∧ n ≤ a.attemptNumber
  superseded : ∀ b, db.AttemptOf e.evaluationId b → b.attemptId ≠ e.currentAttemptId →
    b.state = .expired ∧ ∃ s, db.tasks.find? b.attemptId = some s ∧ s.state = .expired
  leased : ∀ b, db.AttemptOf e.evaluationId b → b.state = .leased →
    b.nodeId.isSome ∧ b.leaseToken.isSome ∧ b.leaseExpiresAtMs.isSome
  result : e.terminalResult.isSome = e.state.isTerminal
  resultKey : e.resultIdempotencyKey.isSome = e.state.isTerminal

/-- The invariant of the store. -/
structure Coupled (db : Database) : Prop where
  evaluations : ∀ id e, db.evaluations.find? id = some e → ∃ a t, EvaluationCoupled db e a t
  owned : ∀ k a, db.attempts.find? k = some a → (db.evaluations.find? a.evaluationId).isSome
  attempted : ∀ k t, db.tasks.find? k = some t → (db.attempts.find? k).isSome
  tidy : ∀ k a, db.attempts.find? k = some a → a.Tidy

variable {db db' : Database}

theorem Coupled.empty : Coupled .empty where
  evaluations _ _ h := by cases h
  owned _ _ h := by cases h
  attempted _ _ h := by cases h
  tidy _ _ h := by cases h

theorem Coupled.linked (h : Coupled db) : Linked db := by
  intro id e he
  obtain ⟨a, t, hc⟩ := h.evaluations id e he
  exact ⟨a, t, hc.triple⟩

/-- What a coupled database finds with an evaluation is coupled to it. -/
theorem Coupled.current (h : Coupled db) {id : EvaluationId} {e : EvaluationRow}
    {a : AttemptRow} (hcurrent : db.current? id = some (e, a)) :
    e.evaluationId = id ∧ ∃ t, EvaluationCoupled db e a t := by
  obtain ⟨he, ha⟩ := Database.current?_eq_some.mp hcurrent
  obtain ⟨a', t, hc⟩ := h.evaluations id e he
  obtain rfl : a' = a := Option.some.inj (hc.triple.attempt.symm.trans ha)
  exact ⟨Table.key_of_find? he, t, hc⟩

/-- The current attempt of a queued evaluation is queued. -/
theorem EvaluationCoupled.attempt_queued {e : EvaluationRow} {a : AttemptRow} {t : TaskRow}
    (h : EvaluationCoupled db e a t) (hqueued : e.state = .queued) : a.state = .queued := by
  have hphase := h.phase
  rw [hqueued] at hphase
  generalize a.state = attemptState, t.state = taskState at hphase
  cases hphase
  rfl

/-- The current attempt of a leased evaluation is leased. -/
theorem EvaluationCoupled.attempt_leased {e : EvaluationRow} {a : AttemptRow} {t : TaskRow}
    (h : EvaluationCoupled db e a t) (hleased : e.state = .leased) : a.state = .leased := by
  have hphase := h.phase
  rw [hleased] at hphase
  generalize a.state = attemptState, t.state = taskState at hphase
  cases hphase
  rfl

theorem Coupled.of_triple (h : Coupled db) {e : EvaluationRow} {a : AttemptRow} {t : TaskRow}
    (htriple : Triple db e a t) : EvaluationCoupled db e a t := by
  obtain ⟨a', t', hc⟩ := h.evaluations _ e htriple.evaluation
  obtain rfl : a' = a := Option.some.inj (hc.triple.attempt.symm.trans htriple.attempt)
  obtain rfl : t' = t := Option.some.inj (hc.triple.task.symm.trans htriple.task)
  exact hc

/-- The current attempt is stored under its own id. -/
theorem Triple.attemptId {e : EvaluationRow} {a : AttemptRow} {t : TaskRow}
    (h : Triple db e a t) : a.attemptId = e.currentAttemptId :=
  Table.key_of_find? h.attempt

theorem Triple.attemptOf {e : EvaluationRow} {a : AttemptRow} {t : TaskRow}
    (h : Triple db e a t) : db.AttemptOf e.evaluationId a :=
  ⟨h.attemptId ▸ h.attempt, h.owned⟩

/-- The stored attempt with the current attempt's id is the current attempt. -/
theorem Triple.eq_attempt {e : EvaluationRow} {a b : AttemptRow} {t : TaskRow}
    (h : Triple db e a t) {id : EvaluationId} (hb : db.AttemptOf id b)
    (hid : b.attemptId = e.currentAttemptId) : b = a :=
  Option.some.inj ((hid ▸ hb.1).symm.trans h.attempt)

theorem Database.attemptOf_of_find? {k : AttemptId} {b : AttemptRow}
    (h : db.attempts.find? k = some b) : db.AttemptOf b.evaluationId b := by
  have hk : b.attemptId = k := Table.key_of_find? h
  exact ⟨hk ▸ h, rfl⟩

/-! ### Evaluations that an effect leaves alone -/

/-- The rows of an evaluation are the same in two databases. -/
structure SameRows (id : EvaluationId) (db db' : Database) : Prop where
  evaluation : db'.evaluations.find? id = db.evaluations.find? id
  attempts : ∀ b, db'.AttemptOf id b ↔ db.AttemptOf id b
  tasks : ∀ b, db.AttemptOf id b →
    db'.tasks.find? b.attemptId = db.tasks.find? b.attemptId

theorem SameRows.refl (id : EvaluationId) (db : Database) : SameRows id db db :=
  ⟨rfl, fun _ => Iff.rfl, fun _ _ => rfl⟩

theorem SameRows.trans {id : EvaluationId} {db₁ db₂ db₃ : Database} (h : SameRows id db₁ db₂)
    (h' : SameRows id db₂ db₃) : SameRows id db₁ db₃ where
  evaluation := h'.evaluation.trans h.evaluation
  attempts b := (h'.attempts b).trans (h.attempts b)
  tasks b hb := (h'.tasks b ((h.attempts b).mpr hb)).trans (h.tasks b hb)

theorem SameRows.triple {f : EvaluationRow} {b : AttemptRow} {s : TaskRow}
    (h : SameRows f.evaluationId db db') (hf : Triple db f b s) : Triple db' f b s where
  evaluation := h.evaluation.trans hf.evaluation
  attempt := hf.attemptId ▸ ((h.attempts b).mpr hf.attemptOf).1
  task := by
    rw [← hf.attemptId, h.tasks b hf.attemptOf, hf.attemptId, hf.task]
  owned := hf.owned

/-- What an evaluation is coupled to is its own attempts and their tasks. -/
theorem EvaluationCoupled.frame {e : EvaluationRow} {a : AttemptRow} {t : TaskRow}
    (h : EvaluationCoupled db e a t) (hsame : SameRows e.evaluationId db db') :
    EvaluationCoupled db' e a t where
  triple := hsame.triple h.triple
  phase := h.phase
  numbers := by simpa only [hsame.attempts] using h.numbers
  superseded := by
    intro b hb hne
    have hold := (hsame.attempts b).mp hb
    obtain ⟨hstate, s, hs, hsstate⟩ := h.superseded b hold hne
    exact ⟨hstate, s, (hsame.tasks b hold).trans hs, hsstate⟩
  leased := fun b hb => h.leased b ((hsame.attempts b).mp hb)
  result := h.result
  resultKey := h.resultKey

/-- Where the rows of one evaluation are written, and are coupled then, the database is coupled as
long as every task has an attempt. -/
private theorem Coupled.written {e : EvaluationRow} {a : AttemptRow} {t : TaskRow}
    (hc : Coupled db) (hnew : EvaluationCoupled db' e a t)
    (hsame : ∀ {id}, id ≠ e.evaluationId → SameRows id db db')
    (hattempted : ∀ k s, db'.tasks.find? k = some s → (db'.attempts.find? k).isSome)
    (htidy : ∀ b, db'.AttemptOf e.evaluationId b → b.Tidy) : Coupled db' where
  evaluations := by
    intro id f hf
    obtain rfl : f.evaluationId = id := Table.key_of_find? hf
    by_cases hid : f.evaluationId = e.evaluationId
    · obtain rfl := Option.some.inj (hf.symm.trans (hid ▸ hnew.triple.evaluation))
      exact ⟨a, t, hnew⟩
    · obtain ⟨b, s, hother⟩ := hc.evaluations _ f ((hsame hid).evaluation.symm.trans hf)
      exact ⟨b, s, hother.frame (hsame hid)⟩
  owned := by
    intro k b hb
    by_cases hid : b.evaluationId = e.evaluationId
    · rw [hid, hnew.triple.evaluation]
      rfl
    · rw [(hsame hid).evaluation]
      exact hc.owned _ b (((hsame hid).attempts b).mp (Database.attemptOf_of_find? hb)).1
  attempted := hattempted
  tidy := by
    intro k b hb
    have hb' := Database.attemptOf_of_find? hb
    by_cases hid : b.evaluationId = e.evaluationId
    · exact htidy b (hid ▸ hb')
    · exact hc.tidy _ b (((hsame hid).attempts b).mp hb').1

/-- The attempts of an evaluation after one row is written. -/
theorem Database.attemptOf_update {k : AttemptId} {r : AttemptRow} (hr : r.attemptId = k)
    (h : db'.attempts.find? = Function.update db.attempts.find? k (some r))
    {id : EvaluationId} {b : AttemptRow} :
    db'.AttemptOf id b ↔
      (b = r ∧ r.evaluationId = id) ∨ (b.attemptId ≠ k ∧ db.AttemptOf id b) := by
  unfold Database.AttemptOf
  rw [h]
  by_cases hb : b.attemptId = k
  · rw [hb, Function.update_self]
    constructor
    · rintro ⟨heq, hid⟩
      obtain rfl := Option.some.inj heq
      exact .inl ⟨rfl, hid⟩
    · rintro (⟨rfl, hid⟩ | ⟨hne, -⟩)
      · exact ⟨rfl, hid⟩
      · exact absurd rfl hne
  · rw [Function.update_of_ne hb]
    constructor
    · exact fun hattempt => .inr ⟨hb, hattempt⟩
    · rintro (⟨rfl, -⟩ | ⟨-, hattempt⟩)
      · exact absurd hr hb
      · exact hattempt

/-! ### Effects that rewrite rows in place -/

/-- The three rows of one evaluation were rewritten, keeping their identities. -/
structure Rewritten (db db' : Database) (e e' : EvaluationRow) (a a' : AttemptRow)
    (t t' : TaskRow) : Prop where
  triple : Triple db e a t
  evaluationId : e'.evaluationId = e.evaluationId
  currentAttemptId : e'.currentAttemptId = e.currentAttemptId
  attemptId : a'.attemptId = a.attemptId
  owner : a'.evaluationId = a.evaluationId
  number : a'.attemptNumber = a.attemptNumber
  payload : a'.requestPayload = a.requestPayload
  capabilities : t'.requiredCapabilities = t.requiredCapabilities
  createdAt : e'.createdAtMs = e.createdAtMs ∧ a'.createdAtMs = a.createdAtMs ∧
    t'.createdAtMs = t.createdAtMs
  evaluations : db'.evaluations.find? =
    Function.update db.evaluations.find? e.evaluationId (some e')
  attempts : db'.attempts.find? =
    Function.update db.attempts.find? e.currentAttemptId (some a')
  tasks : db'.tasks.find? = Function.update db.tasks.find? e.currentAttemptId (some t')

section Rewritten

variable {e e' : EvaluationRow} {a a' : AttemptRow} {t t' : TaskRow}

theorem Claimed.rewritten {nodeId : NodeId} {leaseToken : LeaseToken} {expiry now : Int}
    {operationId : Option ClaimOperationId}
    (h : Claimed db db' e a t nodeId leaseToken expiry operationId now) :
    Rewritten db db' e (e.move .leased now) a (a.claim nodeId leaseToken expiry operationId now)
      t (t.move .leased now) where
  triple := h.triple
  evaluationId := rfl
  currentAttemptId := rfl
  attemptId := rfl
  owner := rfl
  number := rfl
  payload := rfl
  capabilities := rfl
  createdAt := ⟨rfl, rfl, rfl⟩
  evaluations := h.evaluations
  attempts := h.attempts
  tasks := h.tasks

theorem Renewed.rewritten {expiry now : Int} (h : Renewed db db' e a expiry now)
    (htriple : Triple db e a t) : Rewritten db db' e e a (a.renew expiry now) t t where
  triple := htriple
  evaluationId := rfl
  currentAttemptId := rfl
  attemptId := rfl
  owner := rfl
  number := rfl
  payload := rfl
  capabilities := rfl
  createdAt := ⟨rfl, rfl, rfl⟩
  evaluations := by rw [h.evaluations, ← h.evaluation, Function.update_eq_self]
  attempts := h.attempts
  tasks := by rw [h.tasks, ← htriple.task, Function.update_eq_self]

theorem Finished.rewritten {status : EvaluationStatus} {payload : List UInt8}
    {key : IdempotencyKey} {now : Int} (h : Finished db db' e a t status payload key now) :
    Rewritten db db' e (e.finish status payload key now) a (a.move status.attemptState now)
      t (t.move status.taskState now) where
  triple := h.triple
  evaluationId := rfl
  currentAttemptId := rfl
  attemptId := rfl
  owner := rfl
  number := rfl
  payload := rfl
  capabilities := rfl
  createdAt := ⟨rfl, rfl, rfl⟩
  evaluations := h.evaluations
  attempts := h.attempts
  tasks := h.tasks

/-- The rows after a rewrite are a triple again. -/
theorem Rewritten.triple' (h : Rewritten db db' e e' a a' t t') : Triple db' e' a' t' where
  evaluation := by rw [h.evaluations, h.evaluationId, Function.update_self]
  attempt := by rw [h.attempts, h.currentAttemptId, Function.update_self]
  task := by rw [h.tasks, h.currentAttemptId, Function.update_self]
  owned := by rw [h.owner, h.triple.owned, h.evaluationId]

theorem Rewritten.attemptOf (h : Rewritten db db' e e' a a' t t') {id : EvaluationId}
    {b : AttemptRow} :
    db'.AttemptOf id b ↔
      (b = a' ∧ e.evaluationId = id) ∨
        (b.attemptId ≠ e.currentAttemptId ∧ db.AttemptOf id b) := by
  rw [Database.attemptOf_update (h.attemptId.trans h.triple.attemptId) h.attempts,
    h.owner, h.triple.owned]

/-- An attempt has the same number and owner before and after a rewrite. -/
theorem Rewritten.number_iff (h : Rewritten db db' e e' a a' t t') {id : EvaluationId}
    {n : Int} :
    (∃ b, db'.AttemptOf id b ∧ b.attemptNumber = n) ↔
      ∃ b, db.AttemptOf id b ∧ b.attemptNumber = n := by
  constructor
  · rintro ⟨b, hb, hn⟩
    rcases h.attemptOf.mp hb with ⟨rfl, rfl⟩ | ⟨-, hb⟩
    · exact ⟨a, h.triple.attemptOf, h.number ▸ hn⟩
    · exact ⟨b, hb, hn⟩
  · rintro ⟨b, hb, hn⟩
    by_cases hne : b.attemptId = e.currentAttemptId
    · obtain rfl := h.triple.eq_attempt hb hne
      exact ⟨a', h.attemptOf.mpr (.inl ⟨rfl, h.triple.owned.symm.trans hb.2⟩), h.number ▸ hn⟩
    · exact ⟨b, h.attemptOf.mpr (.inr ⟨hne, hb⟩), hn⟩

/-- Rewriting one evaluation leaves every other alone. -/
theorem Rewritten.sameRows (h : Rewritten db db' e e' a a' t t') {id : EvaluationId}
    (hid : id ≠ e.evaluationId) : SameRows id db db' := by
  have hne : ∀ b, db.AttemptOf id b → b.attemptId ≠ e.currentAttemptId := by
    intro b hb heq
    obtain rfl := h.triple.eq_attempt hb heq
    exact hid (hb.2.symm.trans h.triple.owned)
  refine ⟨by rw [h.evaluations, Function.update_of_ne hid], fun b => ?_, fun b hb => ?_⟩
  · rw [h.attemptOf]
    constructor
    · rintro (⟨-, heq⟩ | ⟨-, hb⟩)
      · exact absurd heq.symm hid
      · exact hb
    · exact fun hb => .inr ⟨hne b hb, hb⟩
  · rw [h.tasks, Function.update_of_ne (hne b hb)]

/-- **Rewriting in step** keeps a database coupled. -/
theorem Coupled.rewritten (hc : Coupled db) (h : Rewritten db db' e e' a a' t t')
    (hphase : Phase e'.state a'.state t'.state)
    (hresult : e'.terminalResult.isSome = e'.state.isTerminal)
    (hkey : e'.resultIdempotencyKey.isSome = e'.state.isTerminal) (htidy : a'.Tidy) :
    Coupled db' := by
  have hold := hc.of_triple h.triple
  have hnew : EvaluationCoupled db' e' a' t' :=
    { triple := h.triple'
      phase := hphase
      numbers := by
        rw [h.evaluationId, h.number]
        simpa only [h.number_iff] using hold.numbers
      superseded := by
        rw [h.evaluationId, h.currentAttemptId]
        intro b hb hne
        rcases h.attemptOf.mp hb with ⟨rfl, -⟩ | ⟨-, hb⟩
        · exact absurd (h.attemptId.trans h.triple.attemptId) hne
        · rw [h.tasks, Function.update_of_ne hne]
          exact hold.superseded b hb hne
      leased := by
        rw [h.evaluationId]
        intro b hb hleased
        rcases h.attemptOf.mp hb with ⟨rfl, -⟩ | ⟨-, hb⟩
        · exact htidy.leased hleased
        · exact hold.leased b hb hleased
      result := hresult
      resultKey := hkey }
  refine hc.written hnew (fun hid => h.sameRows (h.evaluationId ▸ hid)) ?_ ?_
  · intro k s hs
    rw [h.tasks] at hs
    rw [h.attempts]
    by_cases hk : k = e.currentAttemptId
    · rw [hk, Function.update_self]
      rfl
    · rw [Function.update_of_ne hk] at hs ⊢
      exact hc.attempted k s hs
  · intro b hb
    rcases h.attemptOf.mp hb with ⟨rfl, -⟩ | ⟨-, hb⟩
    · exact htidy
    · exact hc.tidy _ b hb.1

end Rewritten

/-! ### Effects that add an attempt -/

theorem attemptRow_tidy (request : EvaluationRequest) (payload : List UInt8) (now : Int) :
    (attemptRow request payload now).Tidy where
  queued _ := ⟨rfl, rfl, rfl, rfl⟩
  leased h := by cases h
  claimed h := by cases h

section Created

variable {request : EvaluationRequest} {payload : List UInt8} {now : Int}

theorem Created.attemptOf (h : Created db db' request payload now) {id : EvaluationId}
    {b : AttemptRow} :
    db'.AttemptOf id b ↔
      (b = attemptRow request payload now ∧ request.evaluationId = id) ∨ db.AttemptOf id b := by
  rw [Database.attemptOf_update (r := attemptRow request payload now) rfl h.attempts]
  constructor
  · rintro (hb | ⟨-, hb⟩)
    · exact .inl hb
    · exact .inr hb
  · rintro (hb | hb)
    · exact .inl hb
    · refine .inr ⟨fun heq => ?_, hb⟩
      have hnone := h.newAttempt
      rw [show request.attemptId = b.attemptId from heq.symm, hb.1] at hnone
      cases hnone

theorem Created.triple (h : Created db db' request payload now) :
    Triple db' (evaluationRow request payload now) (attemptRow request payload now)
      (taskRow request now) where
  evaluation := by rw [h.evaluations]; exact Function.update_self ..
  attempt := by rw [h.attempts]; exact Function.update_self ..
  task := by rw [h.tasks]; exact Function.update_self ..
  owned := rfl

/-- Creating an evaluation leaves every other alone. -/
theorem Created.sameRows (h : Created db db' request payload now) {id : EvaluationId}
    (hid : id ≠ request.evaluationId) : SameRows id db db' := by
  refine ⟨by rw [h.evaluations, Function.update_of_ne hid], fun b => ?_, fun b hb => ?_⟩
  · rw [h.attemptOf]
    constructor
    · rintro (⟨-, heq⟩ | hb)
      · exact absurd heq.symm hid
      · exact hb
    · exact .inr
  · rw [h.tasks, Function.update_of_ne]
    -- the new attempt's id was not in use
    intro heq
    have hfind := hb.1
    rw [heq, h.newAttempt] at hfind
    cases hfind

/-- No stored evaluation is the created one. -/
theorem Created.other_triple {f : EvaluationRow} {b : AttemptRow} {s : TaskRow}
    (h : Created db db' request payload now) (hf : Triple db f b s) : Triple db' f b s := by
  refine (h.sameRows fun heq => ?_).triple hf
  have hfe := hf.evaluation
  rw [heq, h.newEvaluation] at hfe
  cases hfe

/-- **Creating** keeps a database coupled. -/
theorem Coupled.created (hc : Coupled db) (h : Created db db' request payload now) :
    Coupled db' := by
  -- an attempt of the new evaluation is its first one: older attempts have older owners
  have hfirst : ∀ b, db'.AttemptOf request.evaluationId b →
      b = attemptRow request payload now := by
    intro b hb
    rcases h.attemptOf.mp hb with ⟨rfl, -⟩ | hb
    · rfl
    · have howner := hc.owned _ _ hb.1
      rw [hb.2, h.newEvaluation] at howner
      cases howner
  have hnew : EvaluationCoupled db' (evaluationRow request payload now)
      (attemptRow request payload now) (taskRow request now) :=
    { triple := h.triple
      phase := .queued
      numbers := by
        refine ⟨request.attemptNumber, fun n => ?_⟩
        constructor
        · rintro ⟨b, hb, rfl⟩
          rw [hfirst b hb]
          exact ⟨Int.le_refl _, Int.le_refl _⟩
        · rintro ⟨hge, hle⟩
          exact ⟨_, h.triple.attemptOf, Int.le_antisymm hge hle⟩
      superseded := fun b hb hne => absurd (congrArg AttemptRow.attemptId (hfirst b hb)) hne
      leased := by
        intro b hb hleased
        rw [hfirst b hb] at hleased
        cases hleased
      result := rfl
      resultKey := rfl }
  refine hc.written hnew h.sameRows ?_ ?_
  · intro k s hs
    rw [h.tasks] at hs
    rw [h.attempts]
    by_cases hk : k = request.attemptId
    · rw [hk, Function.update_self]
      rfl
    · rw [Function.update_of_ne hk] at hs ⊢
      exact hc.attempted k s hs
  · intro b hb
    rw [hfirst b hb]
    exact attemptRow_tidy request payload now

end Created

section Superseded

variable {e : EvaluationRow} {a : AttemptRow} {t : TaskRow} {request : EvaluationRequest}
  {payload : List UInt8} {now : Int}

theorem Superseded.attemptId_ne (h : Superseded db db' e a t request payload now) :
    request.attemptId ≠ e.currentAttemptId := by
  intro heq
  have hnone := h.newAttempt
  rw [heq, h.triple.attempt] at hnone
  cases hnone

/-- The attempts after a retry: the new one, the superseded one, and the rest. -/
theorem Superseded.attemptOf (h : Superseded db db' e a t request payload now)
    {id : EvaluationId} {b : AttemptRow} :
    db'.AttemptOf id b ↔
      (b = attemptRow request payload now ∧ e.evaluationId = id) ∨
        (b = a.move .expired now ∧ e.evaluationId = id) ∨
          (b.attemptId ≠ e.currentAttemptId ∧ db.AttemptOf id b) := by
  have hne := h.attemptId_ne
  unfold Database.AttemptOf
  rw [h.attempts]
  -- by whether the id is the new one, the old one or neither
  by_cases hnew : b.attemptId = request.attemptId
  · rw [hnew, Function.update_self]
    constructor
    · rintro ⟨heq, hid⟩
      obtain rfl := Option.some.inj heq
      exact .inl ⟨rfl, h.evaluationId_eq.symm.trans hid⟩
    · rintro (⟨rfl, hid⟩ | ⟨rfl, -⟩ | ⟨-, hb, -⟩)
      · exact ⟨rfl, h.evaluationId_eq.trans hid⟩
      · exact absurd (hnew.symm.trans h.triple.attemptId) hne
      · rw [h.newAttempt] at hb
        cases hb
  · rw [Function.update_of_ne hnew]
    by_cases hold : b.attemptId = e.currentAttemptId
    · rw [hold, Function.update_self]
      constructor
      · rintro ⟨heq, hid⟩
        obtain rfl := Option.some.inj heq
        exact .inr (.inl ⟨rfl, h.triple.owned.symm.trans hid⟩)
      · rintro (⟨rfl, -⟩ | ⟨rfl, hid⟩ | ⟨hb, -⟩)
        · exact absurd rfl hnew
        · exact ⟨rfl, h.triple.owned.trans hid⟩
        · exact absurd rfl hb
    · rw [Function.update_of_ne hold]
      constructor
      · exact fun hb => .inr (.inr ⟨hold, hb⟩)
      · rintro (⟨rfl, -⟩ | ⟨rfl, -⟩ | ⟨-, hb⟩)
        · exact absurd rfl hnew
        · exact absurd h.triple.attemptId hold
        · exact hb

theorem Superseded.triple' (h : Superseded db db' e a t request payload now) :
    Triple db' (e.requeue request.attemptId now) (attemptRow request payload now)
      (taskRow request now) where
  evaluation := by rw [h.evaluations]; exact Function.update_self ..
  attempt := by rw [h.attempts]; exact Function.update_self ..
  task := by rw [h.tasks]; exact Function.update_self ..
  owned := h.evaluationId_eq

/-- The superseded attempt is still there, expired. -/
theorem Superseded.old_attempt (h : Superseded db db' e a t request payload now) :
    db'.attempts.find? e.currentAttemptId = some (a.move .expired now) := by
  rw [h.attempts, Function.update_of_ne h.attemptId_ne.symm, Function.update_self]

/-- Its task is expired with it. -/
theorem Superseded.expired_task (h : Superseded db db' e a t request payload now) :
    db'.tasks.find? e.currentAttemptId = some (t.move .expired now) := by
  rw [h.tasks, Function.update_of_ne h.attemptId_ne.symm, Function.update_self]

/-- A new attempt extends the numbers of its evaluation by one. -/
private theorem Superseded.numbers (h : Superseded db db' e a t request payload now)
    {first : Int} (hfirst : ∀ n : Int,
      (∃ b, db.AttemptOf e.evaluationId b ∧ b.attemptNumber = n) ↔
        first ≤ n ∧ n ≤ a.attemptNumber) (n : Int) :
    (∃ b, db'.AttemptOf e.evaluationId b ∧ b.attemptNumber = n) ↔
      first ≤ n ∧ n ≤ (attemptRow request payload now).attemptNumber := by
  have hnumber : (attemptRow request payload now).attemptNumber = a.attemptNumber + 1 := h.number
  have hle := ((hfirst a.attemptNumber).mp ⟨a, h.triple.attemptOf, rfl⟩).1
  constructor
  · rintro ⟨b, hb, rfl⟩
    rcases h.attemptOf.mp hb with ⟨rfl, -⟩ | ⟨rfl, -⟩ | ⟨-, hb⟩
    · omega
    · simp only [AttemptRow.move]
      omega
    · have := (hfirst b.attemptNumber).mp ⟨b, hb, rfl⟩
      omega
  · rintro ⟨hge, hle'⟩
    by_cases hn : n = a.attemptNumber + 1
    · exact ⟨_, h.attemptOf.mpr (.inl ⟨rfl, rfl⟩), by omega⟩
    · obtain ⟨b, hb, hbn⟩ := (hfirst n).mpr ⟨hge, by omega⟩
      by_cases hcurrent : b.attemptId = e.currentAttemptId
      · obtain rfl := h.triple.eq_attempt hb hcurrent
        exact ⟨_, h.attemptOf.mpr (.inr (.inl ⟨rfl, rfl⟩)), hbn⟩
      · exact ⟨b, h.attemptOf.mpr (.inr (.inr ⟨hcurrent, hb⟩)), hbn⟩

/-- The evaluation of a superseded attempt is coupled to the next one. -/
private theorem Coupled.requeued (hc : Coupled db)
    (h : Superseded db db' e a t request payload now) :
    EvaluationCoupled db' (e.requeue request.attemptId now) (attemptRow request payload now)
      (taskRow request now) := by
  have hold := hc.of_triple h.triple
  exact
    { triple := h.triple'
      phase := .queued
      numbers := by
        obtain ⟨first, hfirst⟩ := hold.numbers
        exact ⟨first, h.numbers hfirst⟩
      superseded := by
        intro b hb hne
        change b.attemptId ≠ request.attemptId at hne
        rcases h.attemptOf.mp hb with ⟨rfl, -⟩ | ⟨rfl, -⟩ | ⟨hcurrent, hb⟩
        · exact absurd rfl hne
        · exact ⟨rfl, _, (congrArg _ h.triple.attemptId).trans h.expired_task, rfl⟩
        · rw [h.tasks, Function.update_of_ne hne, Function.update_of_ne hcurrent]
          exact hold.superseded b hb hcurrent
      leased := by
        intro b hb hleased
        rcases h.attemptOf.mp hb with ⟨rfl, -⟩ | ⟨rfl, -⟩ | ⟨-, hb⟩
        · cases hleased
        · cases hleased
        · exact hold.leased b hb hleased
      result := by
        have := hold.result
        rw [h.evaluationLeased] at this
        exact this
      resultKey := by
        have := hold.resultKey
        rw [h.evaluationLeased] at this
        exact this }

/-- Superseding an attempt leaves every other evaluation alone. -/
theorem Superseded.sameRows (h : Superseded db db' e a t request payload now) {id : EvaluationId}
    (hid : id ≠ e.evaluationId) : SameRows id db db' := by
  have hne : ∀ b, db.AttemptOf id b → b.attemptId ≠ e.currentAttemptId := by
    intro b hb heq
    obtain rfl := h.triple.eq_attempt hb heq
    exact hid (hb.2.symm.trans h.triple.owned)
  refine ⟨by rw [h.evaluations, Function.update_of_ne hid], fun b => ?_, fun b hb => ?_⟩
  · rw [h.attemptOf]
    constructor
    · rintro (⟨-, heq⟩ | ⟨-, heq⟩ | ⟨-, hb⟩)
      · exact absurd heq.symm hid
      · exact absurd heq.symm hid
      · exact hb
    · exact fun hb => .inr (.inr ⟨hne b hb, hb⟩)
  · have hnew : b.attemptId ≠ request.attemptId := by
      intro heq
      have hfind := hb.1
      rw [heq, h.newAttempt] at hfind
      cases hfind
    rw [h.tasks, Function.update_of_ne hnew, Function.update_of_ne (hne b hb)]

/-- **Superseding** keeps a database coupled. -/
theorem Coupled.superseded (hc : Coupled db)
    (h : Superseded db db' e a t request payload now) : Coupled db' := by
  refine hc.written (hc.requeued h) h.sameRows ?_ ?_
  · intro k s hs
    rw [h.tasks] at hs
    rw [h.attempts]
    -- the new attempt and the superseded one each have their task
    by_cases hk : k = request.attemptId
    · rw [hk, Function.update_self]
      rfl
    · rw [Function.update_of_ne hk] at hs ⊢
      by_cases hcurrent : k = e.currentAttemptId
      · rw [hcurrent, Function.update_self]
        rfl
      · rw [Function.update_of_ne hcurrent] at hs ⊢
        exact hc.attempted k s hs
  · intro b hb
    rcases h.attemptOf.mp hb with ⟨rfl, -⟩ | ⟨rfl, -⟩ | ⟨-, hb⟩
    · exact attemptRow_tidy request payload now
    · have htidy := hc.tidy _ a h.triple.attempt
      exact ⟨fun hq => (by cases hq), fun hl => (by cases hl), htidy.claimed⟩
    · exact hc.tidy _ b hb.1

end Superseded

/-! ### Every effect -/

theorem Claimed.coupled {e : EvaluationRow} {a : AttemptRow} {t : TaskRow} {nodeId : NodeId}
    {leaseToken : LeaseToken} {expiry now : Int} {operationId : Option ClaimOperationId}
    (h : Claimed db db' e a t nodeId leaseToken expiry operationId now) (hc : Coupled db) :
    Coupled db' := by
  have hold := hc.of_triple h.triple
  have hresult := hold.result
  have hkey := hold.resultKey
  rw [h.evaluationQueued] at hresult hkey
  exact hc.rewritten h.rewritten .leased hresult hkey
    ⟨fun hq => (by cases hq), fun _ => ⟨rfl, rfl, rfl⟩, fun _ => rfl⟩

theorem Renewed.triple {e : EvaluationRow} {a : AttemptRow} {expiry now : Int}
    (h : Renewed db db' e a expiry now) (hl : Linked db) : ∃ t, Triple db e a t := by
  obtain ⟨a', t, htriple⟩ := hl _ e h.evaluation
  obtain rfl : a' = a := Option.some.inj (htriple.attempt.symm.trans h.attempt)
  exact ⟨t, htriple⟩

theorem Renewed.coupled {e : EvaluationRow} {a : AttemptRow} {expiry now : Int}
    (h : Renewed db db' e a expiry now) (hc : Coupled db) : Coupled db' := by
  obtain ⟨t, htriple⟩ := h.triple hc.linked
  have hold := hc.of_triple htriple
  have htidy := hc.tidy _ a h.attempt
  refine hc.rewritten (h.rewritten htriple) hold.phase hold.result hold.resultKey ?_
  refine ⟨fun hq => ?_, fun hl => ?_, htidy.claimed⟩
  · rw [show (a.renew expiry now).state = a.state from rfl, h.attemptLeased] at hq
    cases hq
  · obtain ⟨hnode, htoken, -⟩ := htidy.leased hl
    exact ⟨hnode, htoken, rfl⟩

theorem Finished.coupled {e : EvaluationRow} {a : AttemptRow} {t : TaskRow}
    {status : EvaluationStatus} {payload : List UInt8} {key : IdempotencyKey} {now : Int}
    (h : Finished db db' e a t status payload key now) (hc : Coupled db) : Coupled db' := by
  have htidy := hc.tidy _ a h.triple.attempt
  refine hc.rewritten h.rewritten status.phase ?_ ?_ ⟨?_, ?_, htidy.claimed⟩
  · exact status.evaluationState_isTerminal.symm
  · exact status.evaluationState_isTerminal.symm
  · intro hq
    cases status <;> cases hq
  · intro hl
    cases status <;> cases hl

/-- **Coupling is kept by every effect.** -/
theorem Coupled.effect (hc : Coupled db) (h : Effect db db') : Coupled db' := by
  cases h with
  | created h => exact hc.created h
  | claimed h => exact h.coupled hc
  | renewed h => exact h.coupled hc
  | superseded h => exact hc.superseded h
  | finished h => exact h.coupled hc

end OpenOJ
