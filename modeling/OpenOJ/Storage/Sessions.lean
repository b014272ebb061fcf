import OpenOJ.Storage.Locks

/-!
# What a transaction in progress holds

However the connections take their turns, a transaction that has come to some statement holds the
rows that statement found it with and those it has locked since, and the rows it knows of are still
what it read: nobody else can have committed a change to the evaluation, since that takes the rows
it holds.

`Shape` lists, for each statement, what a transaction has locked before it and what it is going to
lock in it; `At` says that a transaction is in such a place and holds no more, and `Valid` says so
of every transaction. A commit is seen from outside as a change of one evaluation only
(`ChangesOnly`), and of what it needs to hold for that (`Concerns`).

* `LockingCall.commit_spec`: a commit changes nothing, or the rows of the transaction's evaluation
  only;
* `LockingCall.exists_operation`: a commit is a whole call of the store;
* `Valid.next`: every turn keeps what the transactions in progress hold and know, with one lemma for
  each statement (`Valid.lookUp`, `Valid.select`, `Valid.check`, `Valid.pick`, `Valid.commit`);
* `reachable_run`: interleaved transactions lead to no database that whole calls, one after the
  other, do not lead to. So the invariants of the store hold under interleaving as well.
-/

namespace OpenOJ

open Outcome

variable {db db' : Database} {e f : EvaluationRow} {a b : AttemptRow} {t s : TaskRow}
  {call : LockingCall}

/-! ### What a transaction updates -/

namespace LockingCall

/-- The rows of an evaluation that a call updates when it updates any, in its order. -/
def rows (e : EvaluationRow) : LockingCall → List RowId
  | .claim .. =>
    [.attempt e.currentAttemptId, .evaluation e.evaluationId, .task e.currentAttemptId]
  | .renew _ => [.attempt e.currentAttemptId]
  | .retry _ =>
    [.attempt e.currentAttemptId, .task e.currentAttemptId, .evaluation e.evaluationId]
  | .submit _ | .cancel _ =>
    [.evaluation e.evaluationId, .attempt e.currentAttemptId, .task e.currentAttemptId]

/-- A call is about an evaluation: the one it names, or any, for a claim. -/
def Concerns (call : LockingCall) (id : EvaluationId) : Prop :=
  call.isClaim = true ∨ call.evaluationId? = some id

theorem Concerns.id_eq {id named : EvaluationId} (h : call.Concerns id)
    (hnamed : call.evaluationId? = some named) : named = id := by
  rcases h with h | h
  · cases call with
    | claim => cases hnamed
    | _ => cases h
  · exact Option.some.inj (hnamed.symm.trans h)

/-- What a call is to update are the rows of its evaluation, or none. -/
theorem updates_spec [Wire] (htriple : Triple db e a t) (hcall : call.Concerns e.evaluationId)
    {updated : List RowId} (h : call.updates e a = .ok updated) :
    updated = call.rows e ∨ updated = [] ∧ call.isClaim = false := by
  have hattempt := htriple.attemptId
  have howned := htriple.owned
  cases call with
  | claim command operationId capabilities =>
    simp only [updates, bind_eq_ok, reportAs_eq_ok, refuseIf_eq_ok, exists_const, pure,
      Except.pure, Except.ok.injEq, hattempt, howned] at h
    obtain ⟨-, -, -, h⟩ := h
    exact .inl h.symm
  | renew command =>
    unfold updates at h
    split_ifs at h with hcancelled
    · exact .inr ⟨(Except.ok.inj h).symm, rfl⟩
    · simp only [bind_eq_ok, orRefuse_eq_ok, refuseIf_eq_ok, not_or, not_not, exists_const, pure,
        Except.pure, Except.ok.injEq] at h
      obtain ⟨-, -, -, -, ⟨-, -, hsame, -⟩, h⟩ := h
      rw [← h, ← hsame]
      exact .inl rfl
  | retry command =>
    have hid : command.request.evaluationId = e.evaluationId := hcall.id_eq rfl
    simp only [updates, bind_eq_ok, orRefuse_eq_ok, reportAs_eq_ok, refuseIf_eq_ok, exists_const,
      pure, Except.pure, Except.ok.injEq, hid] at h
    obtain ⟨-, -, -, -, -, -, -, -, h⟩ := h
    exact .inl h.symm
  | submit command =>
    have hid : command.result.identity.evaluationId = e.evaluationId := hcall.id_eq rfl
    simp only [updates, bind_eq_ok, reportAs_eq_ok] at h
    obtain ⟨-, -, replay, -, h⟩ := h
    cases replay with
    | true => exact .inr ⟨(Except.ok.inj h).symm, rfl⟩
    | false =>
      simp only [Bool.false_eq_true, if_false, bind_eq_ok, orRefuse_eq_ok, reportAs_eq_ok,
        refuseIf_eq_ok, not_or, not_not, exists_const, pure, Except.pure, Except.ok.injEq,
        hid] at h
      obtain ⟨⟨-, -, hsame⟩, -, -, -, -, -, -, -, -, -, h⟩ := h
      rw [← h, ← hsame]
      exact .inl rfl
  | cancel command =>
    have hid : command.evaluationId = e.evaluationId := hcall.id_eq rfl
    simp only [updates, bind_eq_ok, reportAs_eq_ok] at h
    obtain ⟨-, -, replay, -, h⟩ := h
    cases replay with
    | true => exact .inr ⟨(Except.ok.inj h).symm, rfl⟩
    | false =>
      simp only [Bool.false_eq_true, if_false, bind_eq_ok, reportAs_eq_ok, refuseIf_eq_ok,
        exists_const, pure, Except.pure, Except.ok.injEq, hid] at h
      obtain ⟨-, -, -, -, -, h⟩ := h
      exact .inl h.symm

end LockingCall

/-! ### What a commit changes -/

/-- Only the rows of one evaluation have changed, and no attempt has changed hands. -/
structure ChangesOnly (db db' : Database) (id : EvaluationId) : Prop where
  coupled : Coupled db'
  triples : ∀ {f b s}, Triple db f b s → f.evaluationId ≠ id → Triple db' f b s
  attempts : ∀ {k c}, db.AttemptOf k c → ∃ c', db'.AttemptOf k c' ∧ c'.attemptId = c.attemptId

theorem Rewritten.changesOnly {e' : EvaluationRow} {a' : AttemptRow} {t' : TaskRow}
    (h : Rewritten db db' e e' a a' t t') (hc : Coupled db') :
    ChangesOnly db db' e.evaluationId where
  coupled := hc
  triples hf hne := (h.sameRows hne).triple hf
  attempts {k c} hattempt := by
    by_cases hid : c.attemptId = e.currentAttemptId
    · obtain rfl := h.triple.eq_attempt hattempt hid
      have howner : e.evaluationId = k := h.triple.owned.symm.trans hattempt.2
      exact ⟨a', h.attemptOf.mpr (.inl ⟨rfl, howner⟩), h.attemptId⟩
    · exact ⟨c, h.attemptOf.mpr (.inr ⟨hid, hattempt⟩), rfl⟩

theorem Superseded.changesOnly {request : EvaluationRequest} {payload : List UInt8} {now : Int}
    (h : Superseded db db' e a t request payload now) (hc : Coupled db') :
    ChangesOnly db db' e.evaluationId where
  coupled := hc
  triples hf hne := (h.sameRows hne).triple hf
  attempts {k c} hattempt := by
    by_cases hid : c.attemptId = e.currentAttemptId
    · obtain rfl := h.triple.eq_attempt hattempt hid
      have howner : e.evaluationId = k := h.triple.owned.symm.trans hattempt.2
      exact ⟨_, h.attemptOf.mpr (.inr (.inl ⟨rfl, howner⟩)), rfl⟩
    · exact ⟨c, h.attemptOf.mpr (.inr (.inr ⟨hid, hattempt⟩)), rfl⟩

/-- **A commit** changes nothing, or the rows of the transaction's evaluation only; and a renewal,
which leaves the task alone, finds it leased. -/
theorem LockingCall.commit_spec [Wire] (hc : Coupled db) (htriple : Triple db e a t)
    (hcall : call.Concerns e.evaluationId) (h : call.commit e.currentAttemptId db = .ok db') :
    db' = db ∨ ChangesOnly db db' e.evaluationId ∧
      (RowId.task e.currentAttemptId ∈ call.rows e ∨ e.state = .leased) := by
  cases call with
  | claim command operationId capabilities =>
    simp only [commit, bind_eq_ok, pure, Except.pure, Except.ok.injEq] at h
    obtain ⟨⟨lease, db₁⟩, h, rfl⟩ := h
    obtain ⟨f, b, s, hnext, -, hclaimed⟩ := claimTransaction_spec hc.linked h
    -- the task it keeps to is the one of this evaluation's attempt
    obtain ⟨-, -, -, hcurrent, -, -, -, -, hlocked⟩ := mem_claimable.mp (List.argmin_mem hnext)
    have hid : f.currentAttemptId = e.currentAttemptId := by
      rw [hcurrent]
      simpa using hlocked
    have hbelongs : b = a :=
      Option.some.inj ((hid ▸ hclaimed.triple.attempt).symm.trans htriple.attempt)
    have hsame : f.evaluationId = e.evaluationId := by
      rw [← hclaimed.triple.owned, hbelongs, htriple.owned]
    rw [← hsame]
    exact .inr ⟨hclaimed.rewritten.changesOnly (hc.effect (.claimed hclaimed)),
      .inl (by simp [rows])⟩
  | renew command =>
    have hid : command.evaluationId = e.evaluationId := hcall.id_eq rfl
    simp only [commit, bind_eq_ok, pure, Except.pure, Except.ok.injEq] at h
    obtain ⟨⟨directive, db₁⟩, h, rfl⟩ := h
    rcases renewTransaction_spec h with ⟨-, rfl, -⟩ | ⟨f, b, expiresAt, -, hf, -, -, hrenewed⟩
    · exact .inl rfl
    · obtain ⟨s, hs⟩ := hrenewed.triple hc.linked
      obtain ⟨rfl, rfl, rfl⟩ := htriple.unique hs (hf.trans hid)
      exact .inr ⟨(hrenewed.rewritten hs).changesOnly (hc.effect (.renewed hrenewed)),
        .inr hrenewed.evaluationLeased⟩
  | retry command =>
    have hid : command.request.evaluationId = e.evaluationId := hcall.id_eq rfl
    simp only [commit, bind_eq_ok, reportAs_eq_ok] at h
    obtain ⟨now, -, payload, -, h⟩ := h
    obtain ⟨f, b, s, -, -, -, hsuperseded⟩ := retryWrite_spec hc.linked h
    have hsame : f.evaluationId = e.evaluationId := hsuperseded.evaluationId_eq.symm.trans hid
    rw [← hsame]
    exact .inr ⟨hsuperseded.changesOnly (hc.effect (.superseded hsuperseded)),
      .inl (by simp [rows])⟩
  | submit command =>
    have hid : command.result.identity.evaluationId = e.evaluationId := hcall.id_eq rfl
    simp only [commit, bind_eq_ok, pure, Except.pure, Except.ok.injEq] at h
    obtain ⟨⟨id, db₁⟩, h, rfl⟩ := h
    obtain ⟨-, payload, -, f, b, -, ⟨rfl, -⟩ | ⟨hfenced, s, hfinished⟩⟩ :=
      submitTransaction_spec hc.linked h
    · exact .inl rfl
    · rw [← hid, ← hfenced.evaluationId]
      exact .inr ⟨hfinished.rewritten.changesOnly (hc.effect (.finished hfinished)),
        .inl (by simp [rows])⟩
  | cancel command =>
    have hid : command.evaluationId = e.evaluationId := hcall.id_eq rfl
    simp only [commit, bind_eq_ok, pure, Except.pure, Except.ok.injEq] at h
    obtain ⟨⟨id, db₁⟩, h, rfl⟩ := h
    obtain ⟨-, payload, -, f, b, -, ⟨rfl, -⟩ | ⟨hf, -, s, hfinished⟩⟩ :=
      cancelTransaction_spec hc.linked h
    · exact .inl rfl
    · rw [← hid, ← hf]
      exact .inr ⟨hfinished.rewritten.changesOnly (hc.effect (.finished hfinished)),
        .inl (by simp [rows])⟩

/-- The key of a retry that was written was not recorded before. -/
theorem Superseded.newKey {request : EvaluationRequest} {payload : List UInt8} {now : Int}
    (h : Superseded db db' e a t request payload now) :
    ∀ s ∈ db.attempts.rows, s.attemptIdempotencyKey ≠ request.idempotencyKey := by
  intro s hs hkey
  have hstored : db.attempts.find? s.attemptId = some s := Table.mem_rows.mp hs
  have hid : s.attemptId ≠ request.attemptId := by
    intro heq
    rw [heq, h.newAttempt] at hstored
    cases hstored
  -- the row is still there, perhaps expired
  obtain ⟨s', hs', hkey'⟩ : ∃ s', db'.attempts.find? s.attemptId = some s' ∧
      s'.attemptIdempotencyKey = request.idempotencyKey := by
    rw [h.attempts, Function.update_of_ne hid]
    by_cases hcurrent : s.attemptId = e.currentAttemptId
    · rw [hcurrent, h.triple.attempt] at hstored
      obtain rfl := Option.some.inj hstored
      exact ⟨a.move .expired now, by rw [hcurrent, Function.update_self], hkey⟩
    · exact ⟨s, by rw [Function.update_of_ne hcurrent, hstored], hkey⟩
  have hnew : db'.attempts.find? request.attemptId = some (attemptRow request payload now) := by
    rw [h.attempts, Function.update_self]
  have hne : s' ≠ attemptRow request payload now := by
    rintro rfl
    exact hid (Table.key_of_find? hs').symm
  have hapart : AttemptRow.Apart s' (attemptRow request payload now) :=
    Table.apart_of_ne (Table.mem_of_find? hs') (Table.mem_of_find? hnew) hne
  exact hapart.attemptKey hkey'

/-- **A commit** is a whole call of the store. -/
theorem LockingCall.exists_operation [Wire] (hc : Coupled db) {attemptId : AttemptId}
    (h : call.commit attemptId db = .ok db') : ∃ op, store.next op db = db' := by
  cases call with
  | claim command operationId capabilities =>
    simp only [commit, bind_eq_ok, pure, Except.pure, Except.ok.injEq] at h
    obtain ⟨⟨lease, db₁⟩, h, rfl⟩ := h
    refine ⟨.claimTaskWithCapabilities command operationId capabilities (· ≠ attemptId), ?_⟩
    rw [next_claimTaskWithCapabilities, claimTaskWithCapabilities, h, transact_ok]
  | renew command =>
    simp only [commit, bind_eq_ok, pure, Except.pure, Except.ok.injEq] at h
    obtain ⟨⟨directive, db₁⟩, h, rfl⟩ := h
    refine ⟨.judgeRenewLease command, ?_⟩
    rw [next_judgeRenewLease, judgeRenewLease, h, transact_ok]
  | retry command =>
    simp only [commit, bind_eq_ok, orRefuse_eq_ok, reportAs_eq_ok] at h
    obtain ⟨now, hnow, payload, hpayload, h⟩ := h
    obtain ⟨f, b, s, -, -, -, hsuperseded⟩ := retryWrite_spec hc.linked h
    -- the key is new at the commit, so the whole call would have looked it up in vain
    have hlookup : retryLookup command.request.idempotencyKey payload db = .ok none := by
      have hnone : db.attempts.rows.find?
          (fun a => a.attemptIdempotencyKey = command.request.idempotencyKey) = none := by
        simpa using hsuperseded.newKey
      rw [retryLookup, hnone]
      rfl
    refine ⟨.retryExpired command, ?_⟩
    have hok : retryTransaction command db = .ok (command.request.evaluationId, db') := by
      simp only [retryTransaction, hnow, orRefuse_some, hpayload, reportAs_ok, ok_bind, hlookup, h]
      rfl
    rw [next_retryExpired, retryExpired, hok, transact_ok]
  | submit command =>
    simp only [commit, bind_eq_ok, pure, Except.pure, Except.ok.injEq] at h
    obtain ⟨⟨id, db₁⟩, h, rfl⟩ := h
    refine ⟨.submitResult command, ?_⟩
    simp only [Machine.next, store, perform, submitResult, h, transact_ok, Prod.map_snd, id_eq]
  | cancel command =>
    simp only [commit, bind_eq_ok, pure, Except.pure, Except.ok.injEq] at h
    obtain ⟨⟨id, db₁⟩, h, rfl⟩ := h
    refine ⟨.cancelEvaluation command, ?_⟩
    rw [next_cancelEvaluation, cancelEvaluation, h, transact_ok]

/-! ### How far a transaction has come -/

/-- What is known of a transaction at a statement: the rows it held when it came to lock more, and
the rows it locks before it comes to the statement. -/
inductive Shape (db : Database) (call : LockingCall) :
    Statement → List RowId → List RowId → Prop
  | opening {statement : Statement} (hopening : call.opening = statement) :
      Shape db call statement [] []
  | retrying : Shape db call .select [] []
  | replaying {attemptId : AttemptId} (hcall : call.isClaim = false) :
      Shape db call .leave [] [.attempt attemptId]
  | refused {attemptId : AttemptId} : Shape db call .leave [.task attemptId] []
  | selecting {id : EvaluationId} {b : AttemptRow} (hcall : call.evaluationId? = some id)
      (hattempt : db.AttemptOf id b) :
      Shape db call (.check b.attemptId) [] [.evaluation id, .attempt b.attemptId]
  | claiming {e : EvaluationRow} {a : AttemptRow} {t : TaskRow} (hcall : call.isClaim = true)
      (htriple : Triple db e a t) (hqueued : e.state = .queued) :
      Shape db call (.commit e.currentAttemptId) [.task e.currentAttemptId] (call.rows e)
  | updating {e : EvaluationRow} {a : AttemptRow} {t : TaskRow}
      (hcall : call.evaluationId? = some e.evaluationId) (htriple : Triple db e a t) :
      Shape db call (.commit e.currentAttemptId)
        [.evaluation e.evaluationId, .attempt e.currentAttemptId] (call.rows e)

/-- What a transaction that comes to its commit knows, and holds. -/
theorem Shape.committing {attemptId : AttemptId} {held rows : List RowId}
    (h : Shape db call (.commit attemptId) held rows) :
    ∃ e a t, e.currentAttemptId = attemptId ∧ call.Concerns e.evaluationId ∧ Triple db e a t ∧
      rows = call.rows e ∧ RowId.evaluation e.evaluationId ∈ held ++ rows := by
  cases h with
  | opening hopening => cases call <;> cases hopening
  | claiming hcall htriple hqueued =>
    refine ⟨_, _, _, rfl, .inl hcall, htriple, rfl, ?_⟩
    cases call with
    | claim => simp [LockingCall.rows]
    | _ => cases hcall
  | updating hcall htriple => exact ⟨_, _, _, rfl, .inr hcall, htriple, rfl, by simp⟩

/-- What a transaction knows outlasts a change to one evaluation, unless it holds that evaluation's
row, or the task of its queued attempt. -/
theorem Shape.changes {statement : Statement} {held rows : List RowId} {id : EvaluationId}
    (h : Shape db call statement held rows) (hchanges : ChangesOnly db db' id)
    (hother : ∀ {f b s}, Triple db f b s → f.evaluationId = id →
      ¬(RowId.task f.currentAttemptId ∈ held ∧ f.state = .queued ∨
        RowId.evaluation f.evaluationId ∈ held)) :
    Shape db' call statement held rows := by
  cases h with
  | opening hopening => exact .opening hopening
  | retrying => exact .retrying
  | replaying hcall => exact .replaying hcall
  | refused => exact .refused
  | selecting hcall hattempt =>
    obtain ⟨b', hattempt', hid⟩ := hchanges.attempts hattempt
    rw [← hid]
    exact .selecting hcall hattempt'
  | claiming hcall htriple hqueued =>
    refine .claiming hcall (hchanges.triples htriple fun hid => ?_) hqueued
    exact hother htriple hid (.inl ⟨List.mem_singleton_self _, hqueued⟩)
  | updating hcall htriple =>
    refine .updating hcall (hchanges.triples htriple fun hid => ?_)
    exact hother htriple hid (.inr List.mem_cons_self)

namespace Sessions

variable {ι : Type} {st : Sessions ι} {i j : ι}

/-- A connection is in a transaction that held some rows and has locked others since. -/
structure At (st : Sessions ι) (i : ι) (transaction : Transaction) (held taken : List RowId) :
    Prop where
  shape : Shape st.db transaction.call transaction.statement held (taken ++ transaction.wanted)
  holds : ∀ row, st.locks row = some i ↔ row ∈ held ++ taken

/-- Every connection holds what its transaction has locked, and nothing outside a transaction. -/
structure Valid (st : Sessions ι) : Prop where
  coupled : Coupled st.db
  idle : ∀ i, st.transaction i = none → ∀ row, st.locks row ≠ some i
  busy : ∀ i transaction, st.transaction i = some transaction →
    ∃ held taken, st.At i transaction held taken

/-- A transaction at a statement holds what it locked before. -/
theorem Valid.shape (hv : st.Valid) {statement : Statement}
    (hi : st.transaction i = some ⟨call, [], statement⟩) :
    ∃ held rows, Shape st.db call statement held rows ∧
      ∀ row, st.locks row = some i ↔ row ∈ held ++ rows := by
  obtain ⟨held, taken, hat⟩ := hv.busy i _ hi
  have hshape := hat.shape
  rw [List.append_nil] at hshape
  exact ⟨held, taken, hshape, hat.holds⟩

/-- A call whose attempt is still current holds the rows it has selected. -/
theorem Valid.checked (hv : st.Valid)
    (hi : st.transaction i = some ⟨call, [], .check a.attemptId⟩)
    (hcurrent : call.evaluationId?.bind st.db.current? = some (e, a)) :
    call.evaluationId? = some e.evaluationId ∧ a.attemptId = e.currentAttemptId ∧
      (∃ t, Triple st.db e a t) ∧ ∀ row, st.locks row = some i ↔
        row ∈ [RowId.evaluation e.evaluationId, .attempt e.currentAttemptId] := by
  obtain ⟨id, hid, hcurrent⟩ := Option.bind_eq_some_iff.mp hcurrent
  obtain ⟨rfl, t, htriple⟩ := hv.coupled.linked.triple hcurrent
  refine ⟨hid, htriple.attemptId, ⟨t, htriple⟩, ?_⟩
  obtain ⟨held, rows, hshape, hholds⟩ := hv.shape hi
  generalize hsame : a.attemptId = attemptId at hshape
  cases hshape with
  | opening hopening => cases call <;> cases hopening
  | selecting hcall hattempt =>
    obtain rfl := Option.some.inj (hcall.symm.trans hid)
    rwa [← hsame, htriple.attemptId, List.nil_append] at hholds

/-! ### Steps -/

variable [DecidableEq ι]

/-- A step that leaves the database and what the others hold. -/
theorem Valid.put (hv : st.Valid) {transaction : Transaction} {locks : Locks ι RowId}
    (held taken : List RowId)
    (hothers : ∀ j, j ≠ i → ∀ row, locks row = some j ↔ st.locks row = some j)
    (hshape : Shape st.db transaction.call transaction.statement held
      (taken ++ transaction.wanted))
    (hholds : ∀ row, locks row = some i ↔ row ∈ held ++ taken) :
    (Sessions.put { st with locks } i transaction).Valid where
  coupled := hv.coupled
  idle j hj row hheld := by
    have hne : j ≠ i := by
      rintro rfl
      rw [put_transaction_self] at hj
      cases hj
    rw [put_transaction_of_ne _ _ _ _ hne] at hj
    exact hv.idle j hj row ((hothers j hne row).mp hheld)
  busy j other hj := by
    by_cases hne : j = i
    · subst hne
      rw [put_transaction_self] at hj
      obtain rfl := Option.some.inj hj
      exact ⟨held, taken, hshape, hholds⟩
    · rw [put_transaction_of_ne _ _ _ _ hne] at hj
      obtain ⟨held', taken', hat⟩ := hv.busy j other hj
      exact ⟨held', taken', hat.shape, fun row => (hothers j hne row).trans (hat.holds row)⟩

/-- A transaction that ends, leaving a database in which the others know what they did. -/
theorem Valid.leave (hv : st.Valid) {db' : Database} (hc : Coupled db')
    (hshapes : ∀ {j transaction held taken}, j ≠ i → st.At j transaction held taken →
      Shape db' transaction.call transaction.statement held (taken ++ transaction.wanted)) :
    (st.leave i db').Valid where
  coupled := hc
  idle j hj row hheld := by
    obtain ⟨hheld, hne⟩ := Locks.release_eq_some.mp hheld
    rw [leave_transaction_of_ne _ _ _ _ hne] at hj
    exact hv.idle j hj row hheld
  busy j transaction hj := by
    have hne : j ≠ i := by
      rintro rfl
      rw [leave_transaction_self] at hj
      cases hj
    rw [leave_transaction_of_ne _ _ _ _ hne] at hj
    obtain ⟨held, taken, hat⟩ := hv.busy j transaction hj
    refine ⟨held, taken, hshapes hne hat, fun row => ?_⟩
    rw [← hat.holds row, Sessions.leave, Locks.release_eq_some, and_iff_left hne]

/-- A transaction that ends without a write. -/
theorem Valid.leave_same (hv : st.Valid) : (st.leave i st.db).Valid :=
  hv.leave hv.coupled fun _ hat => hat.shape

/-- A row that is free is locked, the last one so far. -/
theorem Valid.lock_at (hv : st.Valid) {row : RowId} {rows : List RowId} {statement : Statement}
    (hi : st.transaction i = some ⟨call, row :: rows, statement⟩) (hfree : st.locks.Free i row) :
    ∃ held taken, ((st.lock i row).put i ⟨call, rows, statement⟩).At i ⟨call, rows, statement⟩ held
      (taken ++ [row]) := by
  obtain ⟨held, taken, hat⟩ := hv.busy i _ hi
  refine ⟨held, taken, ?_, fun row' => ?_⟩
  · rw [List.append_assoc, List.singleton_append]
    exact hat.shape
  · change st.locks.take i row row' = some i ↔ _
    rw [Locks.take_eq_some hfree, hat.holds, and_iff_left rfl, ← List.append_assoc,
      List.mem_append (t := [row]), List.mem_singleton]

theorem Valid.lock (hv : st.Valid) {row : RowId} {rows : List RowId} {statement : Statement}
    (hi : st.transaction i = some ⟨call, row :: rows, statement⟩) (hfree : st.locks.Free i row) :
    ((st.lock i row).put i ⟨call, rows, statement⟩).Valid := by
  obtain ⟨held, taken, hat⟩ := hv.lock_at hi hfree
  exact hv.put held (taken ++ [row]) (fun j hne _ => Locks.take_other hfree hne) hat.shape hat.holds

section Statements

variable [Wire]

/-- A claim that picks a task holds it, and no other row. -/
theorem Valid.pick_at (hv : st.Valid) {capabilities : Option (List String)}
    (hi : st.transaction i = some ⟨call, [], .pick capabilities⟩)
    (hnext : nextClaimable capabilities st.locked st.db = some (t, a, e)) :
    st.locks.Free i (.task t.attemptId) ∧
      ((st.lock i (.task t.attemptId)).put i (call.picked t a e)).At i (call.picked t a e)
        [.task t.attemptId] [] := by
  obtain ⟨held, rows, hshape, hholds⟩ := hv.shape hi
  have hmem := List.argmin_mem hnext
  obtain ⟨htriple, hcurrent, -, -, hqueued⟩ := hv.coupled.linked.triple_of_claimable hmem
  have hlocked : st.locked t.attemptId = false := (mem_claimable.mp hmem).2.2.2.2.2.2.2.2
  have hfree : st.locks.Free i (.task t.attemptId) := by
    intro j hj
    rw [locked, Option.mem_def.mp hj] at hlocked
    cases hlocked
  cases hshape with
  | opening hopening =>
    have hclaim : call.isClaim = true := by
      cases call <;> first | rfl | cases hopening
    refine ⟨hfree, ?_, fun row => ?_⟩
    · rw [LockingCall.picked]
      cases hupdates : call.updates e a with
      | error error => exact .refused
      | ok updated =>
        have hrows : updated = call.rows e :=
          (LockingCall.updates_spec htriple (.inl hclaim) hupdates).resolve_right fun h => by
            rw [hclaim] at h
            cases h.2
        rw [← hcurrent, hrows]
        exact .claiming hclaim htriple hqueued
    · change st.locks.take i (.task t.attemptId) row = some i ↔ _
      rw [Locks.take_eq_some hfree, hholds]
      simp

theorem Valid.pick (hv : st.Valid) {capabilities : Option (List String)}
    (hi : st.transaction i = some ⟨call, [], .pick capabilities⟩) :
    (st.execute i call (.pick capabilities)).Valid := by
  rw [Sessions.execute]
  cases hnext : nextClaimable capabilities st.locked st.db with
  | none => exact hv.leave_same
  | some row =>
    obtain ⟨hfree, hat⟩ := hv.pick_at hi hnext
    exact hv.put _ [] (fun j hne _ => Locks.take_other hfree hne) hat.shape hat.holds

theorem Valid.lookUp (hv : st.Valid) {key : IdempotencyKey}
    (hi : st.transaction i = some ⟨call, [], .lookUp key⟩) :
    (st.execute i call (.lookUp key)).Valid := by
  obtain ⟨held, rows, hshape, hholds⟩ := hv.shape hi
  cases hshape with
  | opening hopening =>
    have hclaim : call.isClaim = false := by
      cases call <;> first | rfl | cases hopening
    rw [execute]
    split
    · exact hv.put [] [] (fun _ _ _ => Iff.rfl) (.replaying hclaim) hholds
    · exact hv.put [] [] (fun _ _ _ => Iff.rfl) .retrying hholds

theorem Valid.select (hv : st.Valid) (hi : st.transaction i = some ⟨call, [], .select⟩) :
    (st.execute i call .select).Valid := by
  obtain ⟨held, rows, hshape, hholds⟩ := hv.shape hi
  have hnothing : ∀ row, st.locks row = some i ↔ row ∈ [] ++ [] := by
    cases hshape <;> exact hholds
  rw [execute]
  cases hcurrent : call.evaluationId?.bind st.db.current? with
  | none => exact hv.leave_same
  | some row =>
    obtain ⟨e, a⟩ := row
    obtain ⟨id, hid, hcurrent⟩ := Option.bind_eq_some_iff.mp hcurrent
    obtain ⟨rfl, t, htriple⟩ := hv.coupled.linked.triple hcurrent
    exact hv.put [] [] (fun _ _ _ => Iff.rfl) (.selecting hid htriple.attemptOf) hnothing

theorem Valid.check (hv : st.Valid) {attemptId : AttemptId}
    (hi : st.transaction i = some ⟨call, [], .check attemptId⟩) :
    (st.execute i call (.check attemptId)).Valid := by
  rw [Sessions.execute]
  cases hcurrent : call.evaluationId?.bind st.db.current? with
  | none => exact hv.leave_same
  | some row =>
    obtain ⟨e, a⟩ := row
    dsimp only
    split_ifs with hsame
    · subst hsame
      obtain ⟨hid, hattempt, ⟨t, htriple⟩, hholds⟩ := hv.checked hi hcurrent
      split
      · rename_i row rest hupdates
        have hrows : row :: rest = call.rows e :=
          (LockingCall.updates_spec htriple (.inr hid) hupdates).resolve_right fun h => by
            cases h.1
        refine hv.put [.evaluation e.evaluationId, .attempt e.currentAttemptId] []
          (fun _ _ _ => Iff.rfl) ?_ hholds
        rw [hrows, hattempt]
        exact .updating hid htriple
      · exact hv.leave_same
    · exact hv.leave_same

theorem Valid.commit (hv : st.Valid) {attemptId : AttemptId}
    (hi : st.transaction i = some ⟨call, [], .commit attemptId⟩) :
    (st.execute i call (.commit attemptId)).Valid := by
  obtain ⟨held, rows, hshape, hholds⟩ := hv.shape hi
  obtain ⟨e, a, t, rfl, hcall, htriple, rfl, hevaluation⟩ := hshape.committing
  rw [execute]
  cases hcommit : call.commit e.currentAttemptId st.db with
  | error error => exact hv.leave_same
  | ok db' =>
    rcases LockingCall.commit_spec hv.coupled htriple hcall hcommit with rfl | ⟨hchanges, htask⟩
    · exact hv.leave_same
    · refine hv.leave hchanges.coupled fun {j transaction held' taken} hne hat => ?_
      refine hat.shape.changes hchanges (fun {f b s} hf hid hcases => ?_)
      obtain ⟨rfl, rfl, rfl⟩ := htriple.unique hf hid
      rcases hcases with ⟨hmem, hqueued⟩ | hmem
      · -- the other is a claim, which holds the task of a queued evaluation
        rcases htask with htask | hleased
        · have hj := (hat.holds _).mpr (List.mem_append_left taken hmem)
          have hi := (hholds _).mpr (List.mem_append_right held htask)
          exact hne (Option.some.inj (hj.symm.trans hi))
        · rw [hqueued] at hleased
          cases hleased
      · have hj := (hat.holds _).mpr (List.mem_append_left taken hmem)
        exact hne (Option.some.inj (hj.symm.trans ((hholds _).mpr hevaluation)))

theorem Valid.execute (hv : st.Valid) {statement : Statement}
    (hi : st.transaction i = some ⟨call, [], statement⟩) :
    (st.execute i call statement).Valid := by
  cases statement with
  | pick capabilities => exact hv.pick hi
  | lookUp key => exact hv.lookUp hi
  | select => exact hv.select hi
  | check attemptId => exact hv.check hi
  | commit attemptId => exact hv.commit hi
  | leave => exact hv.leave_same

theorem Valid.advance (hv : st.Valid) : (st.advance i).Valid := by
  unfold Sessions.advance
  split
  · exact hv
  · rename_i call statement hi
    exact hv.execute hi
  · rename_i call row rows statement hi
    split_ifs with hfree
    · exact hv.lock hi hfree
    · exact hv

theorem Valid.begin (hv : st.Valid) : (st.begin i call).Valid := by
  unfold Sessions.begin
  split
  · rename_i hi hprepare
    refine hv.put [] [] (fun _ _ _ => Iff.rfl) (.opening rfl) fun row => ?_
    exact iff_of_false (hv.idle i hi row) List.not_mem_nil
  · exact hv

/-- **Every turn** keeps what the transactions in progress hold and know. -/
theorem Valid.next (hv : st.Valid) (turn : Turn ι) : (st.next turn).Valid := by
  cases turn with
  | begin i call => exact hv.begin
  | advance i => exact hv.advance
  | abort i => exact hv.leave_same

/-- Only a commit changes the database, as one call of the store does. -/
theorem execute_db (hc : Coupled st.db) (statement : Statement) :
    (st.execute i call statement).db = st.db ∨
      ∃ op, (st.execute i call statement).db = store.next op st.db := by
  unfold Sessions.execute
  cases statement with
  | pick capabilities =>
    dsimp only
    split <;> exact .inl rfl
  | lookUp key =>
    dsimp only
    split <;> exact .inl rfl
  | select =>
    dsimp only
    split <;> exact .inl rfl
  | check attemptId =>
    dsimp only
    split
    · exact .inl rfl
    · split_ifs
      · split <;> exact .inl rfl
      · exact .inl rfl
  | commit attemptId =>
    dsimp only
    split
    · rename_i db' hcommit
      obtain ⟨op, hop⟩ := LockingCall.exists_operation hc hcommit
      exact .inr ⟨op, hop.symm⟩
    · exact .inl rfl
  | leave => exact .inl rfl

/-- **Interleaved transactions** lead to no database that whole calls, one after the other, do not
lead to. -/
theorem reachable_run (hr : store.Reachable db) (turns : List (Turn ι)) :
    store.Reachable ((sessions db).run turns).db := by
  have hturn : ∀ (st : Sessions ι) turn, store.Reachable st.db →
      store.Reachable (st.next turn).db := by
    intro st turn hst
    have hdb : (st.next turn).db = st.db ∨ ∃ op, (st.next turn).db = store.next op st.db := by
      cases turn with
      | begin i call =>
        rw [Sessions.next, Sessions.begin]
        split <;> exact .inl rfl
      | abort i => exact .inl rfl
      | advance i =>
        rw [Sessions.next, Sessions.advance]
        split
        · exact .inl rfl
        · exact execute_db (coupled_of_reachable hst) _
        · split_ifs <;> exact .inl rfl
    rcases hdb with hdb | ⟨op, hdb⟩
    · rwa [hdb]
    · rw [hdb]
      exact hst.next op
  exact Machine.run_preserves (m := sessions db) (P := fun st => store.Reachable st.db)
    (fun st turn _ => hturn st turn) (sessions db).reachable_start hr turns

theorem valid_start (hr : store.Reachable db) : (sessions (ι := ι) db).start.Valid where
  coupled := coupled_of_reachable hr
  idle _ _ _ := nofun
  busy _ _ := nofun

end Statements

end Sessions

end OpenOJ
