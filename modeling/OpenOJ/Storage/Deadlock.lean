import OpenOJ.Storage.Claim
import OpenOJ.Storage.Finality
import OpenOJ.Storage.Sessions

/-!
# Deadlocks of the store

A claim locks a task before the attempt and the evaluation, and every other call locks the
evaluation and the attempt before the task. Where the two meet on one evaluation, each of them waits
for what the other has just locked.

These are the only deadlocks. A transaction that waits, and is waited for, is in one of a few places
(`Blocked`); whoever waits for the last row it locked is what it waits for itself (`WaitsAt.meets`),
so that chains of waits lead back, and `Locks.deadlocked_iff_headOn` applies
(`Valid.deadlocked_iff`). Whoever waits for an attempt that is no longer current waits for a
transaction that does not wait (`WaitsAt.not_stale`).

What a turn does is then told by the state before it. It closes a cycle when it locks a row that
another transaction waits for, while that one holds the row which is to be locked next
(`MeetsHeadOn`); a turn without this is `Clear`.

* `clear_iff_lock`: a step that locks a row closes a cycle exactly when a claim meets another call;
* `Valid.clear_iff`: the same of every turn, since the others close none;
* `deadlockFree_iff`: in a run from any reachable database no state reached is deadlocked exactly
  when every turn of it is clear;
* `claim_cancel_deadlocked`: a claim and a cancellation of one queued evaluation do meet.
-/

namespace OpenOJ

open Outcome

variable {db : Database} {e : EvaluationRow} {a b : AttemptRow} {t : TaskRow} {call : LockingCall}

/-! ### Transactions that wait -/

/-- What a transaction that waits has locked, in this order, and the row it waits for. -/
inductive Blocked (db : Database) : Bool → List RowId → RowId → Prop
  | nothing {row : RowId} : Blocked db false [] row
  | claimAttempt {e : EvaluationRow} {a : AttemptRow} {t : TaskRow} (htriple : Triple db e a t) :
      Blocked db true [.task e.currentAttemptId] (.attempt e.currentAttemptId)
  | claimEvaluation {e : EvaluationRow} {a : AttemptRow} {t : TaskRow} (htriple : Triple db e a t) :
      Blocked db true [.task e.currentAttemptId, .attempt e.currentAttemptId]
        (.evaluation e.evaluationId)
  | selectAttempt {id : EvaluationId} {b : AttemptRow} (hattempt : db.AttemptOf id b) :
      Blocked db false [.evaluation id] (.attempt b.attemptId)
  | updateTask {e : EvaluationRow} {a : AttemptRow} {t : TaskRow} (htriple : Triple db e a t)
      {held : List RowId}
      (hheld : ∀ row, row ∈ held ↔ row = .evaluation e.evaluationId ∨
        row = .attempt e.currentAttemptId)
      (hlast : held.getLast? = some (.attempt e.currentAttemptId)) :
      Blocked db false held (.task e.currentAttemptId)

theorem LockingCall.isClaim_of_evaluationId? {id : EvaluationId}
    (h : call.evaluationId? = some id) : call.isClaim = false := by
  cases call with
  | claim => cases h
  | _ => rfl

/-- A call that updates rows it has selected comes to lock one more, the task, right after it has
locked the attempt again. -/
theorem LockingCall.rows_eq {id : EvaluationId} (hcall : call.evaluationId? = some id)
    {taken rest : List RowId} {row : RowId} (h : taken ++ row :: rest = call.rows e)
    (hevaluation : row ≠ .evaluation e.evaluationId)
    (hattempt : row ≠ .attempt e.currentAttemptId) :
    row = .task e.currentAttemptId ∧ (taken = [.attempt e.currentAttemptId] ∨
      taken = [.evaluation e.evaluationId, .attempt e.currentAttemptId]) := by
  cases call with
  | claim => cases hcall
  | renew command =>
    rcases taken with _ | ⟨_, taken⟩
    · exact absurd (List.cons.inj h).1 hattempt
    · simp [rows] at h
  | retry command =>
    rcases taken with _ | ⟨_, _ | ⟨_, _ | ⟨_, taken⟩⟩⟩
    · exact absurd (List.cons.inj h).1 hattempt
    · obtain ⟨rfl, rfl, -⟩ : _ = _ ∧ row = _ ∧ _ := by simpa [rows] using h
      exact ⟨rfl, .inl rfl⟩
    · obtain ⟨-, -, rfl, -⟩ : _ = _ ∧ _ = _ ∧ row = _ ∧ _ := by simpa [rows] using h
      exact absurd rfl hevaluation
    · simp [rows] at h
  | submit command | cancel command =>
    rcases taken with _ | ⟨_, _ | ⟨_, _ | ⟨_, taken⟩⟩⟩
    · exact absurd (List.cons.inj h).1 hevaluation
    · obtain ⟨-, rfl, -⟩ : _ = _ ∧ row = _ ∧ _ := by simpa [rows] using h
      exact absurd rfl hattempt
    · obtain ⟨rfl, rfl, rfl, -⟩ : _ = _ ∧ _ = _ ∧ row = _ ∧ _ := by simpa [rows] using h
      exact ⟨rfl, .inr rfl⟩
    · simp [rows] at h

/-- The first row it updates is one of those it has selected. -/
theorem LockingCall.head_rows {id : EvaluationId} (hcall : call.evaluationId? = some id)
    {row : RowId} (h : row ∈ (call.rows e).head?) :
    row ∈ [RowId.evaluation e.evaluationId, .attempt e.currentAttemptId] := by
  cases call with
  | claim => cases hcall
  | renew | retry | submit | cancel =>
    obtain rfl : _ = row := by simpa [rows] using h
    simp

/-- A transaction that wants a row it does not hold is blocked in one of these places. -/
theorem Shape.blocked {statement : Statement} {held taken rest : List RowId} {row : RowId}
    (h : Shape db call statement held (taken ++ row :: rest)) (hrow : row ∉ held ++ taken) :
    Blocked db call.isClaim (held ++ taken) row := by
  generalize hrows : taken ++ row :: rest = rows at h
  cases h with
  | opening | retrying | refused => simp at hrows
  | replaying hcall =>
    rw [hcall]
    rcases taken with _ | ⟨_, taken⟩
    · exact .nothing
    · simp at hrows
  | selecting hcall hattempt =>
    rw [LockingCall.isClaim_of_evaluationId? hcall]
    rcases taken with _ | ⟨_, _ | ⟨_, taken⟩⟩
    · exact .nothing
    · obtain ⟨rfl, rfl, -⟩ : _ = _ ∧ row = _ ∧ _ := by simpa using hrows
      exact .selectAttempt hattempt
    · simp at hrows
  | claiming hcall htriple hqueued =>
    rw [hcall]
    cases call with
    | claim command operationId capabilities =>
      rcases taken with _ | ⟨_, _ | ⟨_, _ | ⟨_, taken⟩⟩⟩
      · obtain ⟨rfl, -⟩ : row = _ ∧ _ := by simpa [LockingCall.rows] using hrows
        exact .claimAttempt htriple
      · obtain ⟨rfl, rfl, -⟩ : _ = _ ∧ row = _ ∧ _ := by simpa [LockingCall.rows] using hrows
        exact .claimEvaluation htriple
      · -- the task is locked already
        obtain ⟨-, -, rfl, -⟩ : _ = _ ∧ _ = _ ∧ row = _ ∧ _ := by
          simpa [LockingCall.rows] using hrows
        simp at hrow
      · simp [LockingCall.rows] at hrows
    | _ => cases hcall
  | @updating e a t hcall htriple =>
    rw [LockingCall.isClaim_of_evaluationId? hcall]
    have hheld : ∀ {r}, r ∈ [RowId.evaluation e.evaluationId, .attempt e.currentAttemptId] →
        row ≠ r := by
      rintro r hr rfl
      exact hrow (List.mem_append_left _ hr)
    obtain ⟨rfl, rfl | rfl⟩ := LockingCall.rows_eq hcall hrows
      (hheld List.mem_cons_self) (hheld (List.mem_cons_of_mem _ List.mem_cons_self))
    · exact .updateTask htriple (fun row => by simp) rfl
    · refine .updateTask htriple (fun row => ?_) rfl
      simp only [List.cons_append, List.nil_append, List.mem_cons, List.not_mem_nil, or_false]
      tauto

/-! ### Who waits for whom -/

/-- An attempt belongs to the evaluation whose current attempt it is. -/
theorem Triple.evaluationId_eq {id : EvaluationId} (h : Triple db e a t) (hb : db.AttemptOf id b)
    (hid : b.attemptId = e.currentAttemptId) : e.evaluationId = id := by
  rw [← h.owned, ← h.eq_attempt hb hid, hb.2]

namespace Sessions

variable {ι : Type} {st : Sessions ι} {i j k : ι} {held heldⱼ : List RowId} {row rowⱼ : RowId}

/-- A connection waits for another one, at a place where it has locked some rows. -/
structure WaitsAt (st : Sessions ι) (i j : ι) (held : List RowId) (row : RowId) : Prop where
  ne : i ≠ j
  blocked : Blocked st.db (st.isClaim i) held row
  holds : ∀ r, st.locks r = some i ↔ r ∈ held
  wants : st.wants i = some row
  holder : st.locks row = some j

theorem At.waitsAt {transaction : Transaction} {held taken : List RowId}
    (hat : st.At i transaction held taken) (hi : st.transaction i = some transaction)
    (h : st.locks.Waits st.wants i j) : ∃ row, st.WaitsAt i j (held ++ taken) row := by
  obtain ⟨hne, row, hwants, hholder⟩ := h
  have hrow : transaction.wanted.head? = some row := by
    rwa [Sessions.wants, hi] at hwants
  obtain ⟨rest, hwanted⟩ := List.head?_eq_some_iff.mp hrow
  have hshape := hat.shape
  rw [hwanted] at hshape
  have hfree : row ∉ held ++ taken := by
    intro hmem
    exact hne (Option.some.inj (((hat.holds row).mpr hmem).symm.trans hholder))
  refine ⟨row, hne, ?_, hat.holds, hwants, hholder⟩
  rw [isClaim, hi]
  exact hshape.blocked hfree

theorem Valid.waitsAt (hv : st.Valid) (h : st.locks.Waits st.wants i j) :
    ∃ held row, st.WaitsAt i j held row := by
  obtain ⟨-, row, hwants, -⟩ := id h
  obtain ⟨transaction, hi, -⟩ := Option.bind_eq_some_iff.mp hwants
  obtain ⟨held, taken, hat⟩ := hv.busy i transaction hi
  exact ⟨_, hat.waitsAt hi h⟩

/-- No two connections hold one row. -/
theorem WaitsAt.apart (hi : st.WaitsAt i j held row) (hj : st.WaitsAt j k heldⱼ rowⱼ) {r : RowId}
    (hr : r ∈ held) : r ∉ heldⱼ := fun hr' =>
  hi.ne (Option.some.inj (((hi.holds r).mpr hr).symm.trans ((hj.holds r).mpr hr')))

/-- A call waits for an attempt of the evaluation it has locked that is not the current one. -/
def WaitsStale (st : Sessions ι) (e : EvaluationRow) (held : List RowId) (row : RowId) : Prop :=
  ∃ b a t, Triple st.db e a t ∧ st.db.AttemptOf e.evaluationId b ∧
    b.attemptId ≠ e.currentAttemptId ∧ held = [.evaluation e.evaluationId] ∧
    row = .attempt b.attemptId

/-- **Meeting.** A transaction that holds a row, and waits for one that waits itself, is met by it:
the one is a claim, the other is not, and the other waits for the row it locked last. The exception
is a claim that waits for a call which locks an attempt that is no longer current. -/
theorem WaitsAt.meets (hi : st.WaitsAt i j held row) (hj : st.WaitsAt j k heldⱼ rowⱼ)
    (hheld : held ≠ []) :
    st.isClaim i ≠ st.isClaim j ∧
      (held.getLast? = some rowⱼ ∨ ∃ e, st.WaitsStale e heldⱼ rowⱼ) := by
  have hmem : row ∈ heldⱼ := (hj.holds row).mp hi.holder
  have hapart : ∀ {r}, r ∈ held → r ∉ heldⱼ := fun hr => hi.apart hj hr
  have hblocked := hi.blocked
  have hblockedⱼ := hj.blocked
  generalize st.isClaim i = claims at hblocked ⊢
  generalize st.isClaim j = claimsⱼ at hblockedⱼ ⊢
  cases hblocked with
  | nothing => exact absurd rfl hheld
  | @claimAttempt e a t htriple =>
    cases hblockedⱼ with
    | nothing | claimAttempt | selectAttempt => simp at hmem
    | @claimEvaluation f =>
      -- both would hold the task
      obtain hid : e.currentAttemptId = f.currentAttemptId := by simpa using hmem
      exact absurd (hid ▸ List.mem_cons_self) (hapart List.mem_cons_self)
    | @updateTask f _ _ _ _ hrows =>
      obtain hid : e.currentAttemptId = f.currentAttemptId := by simpa using (hrows _).mp hmem
      exact ⟨Bool.noConfusion, .inl (congrArg (fun id => some (RowId.task id)) hid)⟩
  | @claimEvaluation e a t htriple =>
    cases hblockedⱼ with
    | nothing | claimAttempt | claimEvaluation => simp at hmem
    | @selectAttempt id b hattempt =>
      obtain rfl : e.evaluationId = id := by simpa using hmem
      refine ⟨Bool.noConfusion, ?_⟩
      by_cases hcurrent : b.attemptId = e.currentAttemptId
      · exact .inl (congrArg (fun id => some (RowId.attempt id)) hcurrent.symm)
      · exact .inr ⟨e, b, a, t, htriple, hattempt, hcurrent, rfl, rfl⟩
    | @updateTask f _ _ htripleⱼ _ hrows =>
      -- both would hold the attempt
      obtain hid : e.evaluationId = f.evaluationId := by simpa using (hrows _).mp hmem
      obtain ⟨rfl, -⟩ := htriple.unique htripleⱼ hid.symm
      exact absurd ((hrows _).mpr (.inr rfl)) (hapart (List.mem_cons_of_mem _ List.mem_cons_self))
  | @selectAttempt id b hattempt =>
    cases hblockedⱼ with
    | nothing | claimAttempt | selectAttempt => simp at hmem
    | claimEvaluation htripleⱼ =>
      have hid := htripleⱼ.evaluationId_eq hattempt (by simpa using hmem)
      exact ⟨Bool.noConfusion, .inl (congrArg (fun id => some (RowId.evaluation id)) hid.symm)⟩
    | updateTask htripleⱼ hrows =>
      -- both would hold the evaluation
      have hid := htripleⱼ.evaluationId_eq hattempt (by simpa using (hrows _).mp hmem)
      exact absurd ((hrows _).mpr (.inl (congrArg RowId.evaluation hid.symm)))
        (hapart List.mem_cons_self)
  | @updateTask e a t htriple held hrows hlast =>
    cases hblockedⱼ with
    | nothing | selectAttempt => simp at hmem
    | @claimAttempt f =>
      obtain hid : e.currentAttemptId = f.currentAttemptId := by simpa using hmem
      exact ⟨Bool.noConfusion, .inl (by rw [hlast, hid])⟩
    | @claimEvaluation f =>
      -- both would hold the attempt
      obtain hid : e.currentAttemptId = f.currentAttemptId := by simpa using hmem
      refine absurd ?_ (hapart ((hrows _).mpr (.inr rfl)))
      rw [hid]
      exact List.mem_cons_of_mem _ List.mem_cons_self
    | updateTask _ hrowsⱼ => simpa using (hrowsⱼ _).mp hmem

/-- A call that waits for such an attempt waits for one that does not wait. -/
theorem WaitsAt.not_stale {l : ι} {heldₖ : List RowId} {rowₖ : RowId}
    (hj : st.WaitsAt j k heldⱼ rowⱼ) (hk : st.WaitsAt k l heldₖ rowₖ) :
    ¬st.WaitsStale e heldⱼ rowⱼ := by
  rintro ⟨b, a, t, htriple, hattempt, hcurrent, rfl, rfl⟩
  have hmem : RowId.attempt b.attemptId ∈ heldₖ := (hk.holds _).mp hj.holder
  have hblocked := hk.blocked
  generalize st.isClaim k = claims at hblocked
  cases hblocked with
  | nothing | claimAttempt | selectAttempt => simp at hmem
  | claimEvaluation htripleₖ =>
    obtain hid : b.attemptId = _ := by simpa using hmem
    obtain ⟨rfl, -⟩ := htriple.unique htripleₖ (htripleₖ.evaluationId_eq hattempt hid)
    exact hcurrent hid
  | updateTask htripleₖ hrows =>
    obtain hid : b.attemptId = _ := by simpa using (hrows _).mp hmem
    obtain ⟨rfl, -⟩ := htriple.unique htripleₖ (htripleₖ.evaluationId_eq hattempt hid)
    exact hcurrent hid

/-- Every deadlock is one of two connections that wait for each other. -/
theorem Valid.deadlocked_iff (hv : st.Valid) :
    st.Deadlocked ↔ ∃ i j, st.locks.HeadOn st.wants i j := by
  refine Locks.deadlocked_iff_headOn fun {h i j k l} hfirst hsecond hthird hfourth => ?_
  obtain ⟨held, row, hi⟩ := hv.waitsAt hsecond
  obtain ⟨heldⱼ, rowⱼ, hj⟩ := hv.waitsAt hthird
  obtain ⟨heldₖ, rowₖ, hk⟩ := hv.waitsAt hfourth
  obtain ⟨-, r, -, hr⟩ := hfirst
  have hheld : held ≠ [] := List.ne_nil_of_mem ((hi.holds r).mp hr)
  rcases (hi.meets hj hheld).2 with hlast | ⟨e, hstale⟩
  · have hholder := (hi.holds rowⱼ).mpr (List.mem_of_getLast? hlast)
    exact Option.some.inj (hj.holder.symm.trans hholder)
  · exact absurd hstale (hj.not_stale hk)

/-- Of two transactions that wait for each other one is a claim and the other is not, and each
waits for the row the other locked last. -/
theorem WaitsAt.headOn (hi : st.WaitsAt i j held row) (hj : st.WaitsAt j i heldⱼ rowⱼ) :
    st.isClaim i ≠ st.isClaim j ∧ held.getLast? = some rowⱼ := by
  have hmem : rowⱼ ∈ held := (hi.holds rowⱼ).mp hj.holder
  obtain ⟨hclaim, hlast | ⟨e, hstale⟩⟩ := hi.meets hj (List.ne_nil_of_mem hmem)
  · exact ⟨hclaim, hlast⟩
  · exact absurd hstale (hj.not_stale hi)

/-! ### Steps that close a cycle -/

/-- A step meets another transaction head-on: the one holds the row that the step's transaction
wants next, and is about to lock the row that the step locks. One of the two is a claim. -/
def MeetsHeadOn [Wire] [DecidableEq ι] (st : Sessions ι) (i j : ι) : Prop :=
  st.isClaim i ≠ st.isClaim j ∧ ∃ row after, st.locking i = some (row, after) ∧
    st.locks after = some j ∧ st.wants j = some row

/-- A turn in which no claim meets another call head-on. -/
def Clear [Wire] [DecidableEq ι] (st : Sessions ι) : Turn ι → Prop
  | .advance i => ∀ j, ¬st.MeetsHeadOn i j
  | .begin .. | .abort _ => True

section Steps

variable [DecidableEq ι] {st' : Sessions ι} {transaction : Transaction}

theorem put_wants_self : (st.put i transaction).wants i = transaction.wanted.head? := by
  rw [wants, put_transaction_self, Option.bind_some]

theorem put_wants_of_ne (h : j ≠ i) : (st.put i transaction).wants j = st.wants j := by
  rw [wants, put_transaction_of_ne _ _ _ _ h, wants]

/-- A cycle that a step of one connection closes goes through it. -/
theorem Valid.deadlocked_step (hv : st'.Valid) (h : ¬st.Deadlocked)
    (hothers : ∀ {j k}, j ≠ i → k ≠ i → st'.locks.Waits st'.wants j k →
      st.locks.Waits st.wants j k) :
    st'.Deadlocked ↔ ∃ j, st'.locks.HeadOn st'.wants i j := by
  refine ⟨fun hdead => ?_, fun ⟨j, hmeet⟩ => hmeet.deadlocked⟩
  obtain ⟨j, k, hmeet⟩ := hv.deadlocked_iff.mp hdead
  by_cases hj : j = i
  · exact ⟨k, hj ▸ hmeet⟩
  · by_cases hk : k = i
    · exact ⟨j, hk ▸ hmeet.symm⟩
    · refine absurd (Locks.HeadOn.deadlocked ⟨hothers hj hk hmeet.1, hothers hk hj hmeet.2⟩) h

/-- A transaction that ends closes no cycle. -/
theorem not_deadlocked_leave (h : ¬st.Deadlocked) : ¬(st.leave i db).Deadlocked := by
  intro hdead
  refine h (Locks.Deadlocked.of_release hdead ?_ fun j hne => ?_)
  · rw [wants, leave_transaction_self, Option.bind_none]
  · rw [wants, leave_transaction_of_ne _ _ _ _ hne, wants]

/-- A statement that locks nothing closes no cycle when its transaction holds nothing yet, or the
row that it wants. -/
theorem not_deadlocked_put (h : ¬st.Deadlocked) (hv : (st.put i transaction).Valid)
    (hholds : (∀ row, st.locks row ≠ some i) ∨
      ∀ row ∈ transaction.wanted.head?, st.locks row = some i) :
    ¬(st.put i transaction).Deadlocked := by
  intro hdead
  have hothers : ∀ {j k}, j ≠ i → k ≠ i →
      (st.put i transaction).locks.Waits (st.put i transaction).wants j k →
        st.locks.Waits st.wants j k := by
    rintro j k hj - ⟨hne, row, hwants, hheld⟩
    exact ⟨hne, row, put_wants_of_ne hj ▸ hwants, hheld⟩
  obtain ⟨j, ⟨hne, row, hwants, hheld⟩, -, row', -, hheld'⟩ :=
    (hv.deadlocked_step h hothers).mp hdead
  rcases hholds with hnothing | hown
  · exact hnothing row' hheld'
  · rw [put_wants_self] at hwants
    exact hne (Option.some.inj ((hown row hwants).symm.trans hheld))

theorem put_isClaim_self : (st.put i transaction).isClaim i = transaction.call.isClaim := by
  rw [isClaim, put_transaction_self, Option.any_some]

theorem put_isClaim_of_ne (h : j ≠ i) : (st.put i transaction).isClaim j = st.isClaim j := by
  rw [isClaim, put_transaction_of_ne _ _ _ _ h, isClaim]

variable [Wire]

/-- **A step that locks a row** closes a cycle exactly when a claim meets another call in it. -/
theorem clear_iff_lock (h : ¬st.Deadlocked) {row : RowId} (hfree : st.locks.Free i row)
    (hv : ((st.lock i row).put i transaction).Valid) {held taken : List RowId}
    (hat : ((st.lock i row).put i transaction).At i transaction held taken)
    (hlast : (held ++ taken).getLast? = some row)
    (hclaim : st.isClaim i = transaction.call.isClaim)
    (hlocking : st.locking i = transaction.wanted.head?.map fun after => (row, after)) :
    st.Clear (.advance i) ↔ ¬((st.lock i row).put i transaction).Deadlocked := by
  have hothers : ∀ {j k}, j ≠ i → k ≠ i →
      ((st.lock i row).put i transaction).locks.Waits
          ((st.lock i row).put i transaction).wants j k →
        st.locks.Waits st.wants j k :=
    fun hj hk hwaits => Locks.Waits.of_take hwaits hj hk fun j hne => put_wants_of_ne hne
  rw [hv.deadlocked_step h hothers, not_exists]
  refine forall_congr' fun j => not_congr ?_
  constructor
  · rintro ⟨hne, row', after, hstep, hheld, hwants⟩
    have hij : i ≠ j := by
      rintro rfl
      exact hne rfl
    rw [hlocking] at hstep
    obtain ⟨after, hafter, heq⟩ := Option.map_eq_some_iff.mp hstep
    obtain ⟨rfl, rfl⟩ := Prod.mk.inj heq
    refine Locks.headOn_take hfree hij (put_wants_self.trans hafter) hheld ?_
    exact (put_wants_of_ne hij.symm).trans hwants
  · intro hmeet
    obtain ⟨after, hi⟩ := hat.waitsAt (put_transaction_self _ _ _) hmeet.1
    obtain ⟨heldⱼ, rowⱼ, hj⟩ := hv.waitsAt hmeet.2
    obtain ⟨hne, hlastⱼ⟩ := hi.headOn hj
    obtain rfl : row = rowⱼ := Option.some.inj (hlast.symm.trans hlastⱼ)
    have hij : j ≠ i := hi.ne.symm
    have hafter : transaction.wanted.head? = some after := put_wants_self.symm.trans hi.wants
    rw [put_isClaim_self, put_isClaim_of_ne hij, ← hclaim] at hne
    refine ⟨hne, row, after, by rw [hlocking, hafter, Option.map_some], ?_, ?_⟩
    · exact (Locks.take_other hfree hij).mp hi.holder
    · exact (put_wants_of_ne hij).symm.trans hj.wants

/-- A step that locks nothing meets nobody. -/
theorem clear_of_locking (h : st.locking i = none) : st.Clear (.advance i) := by
  rintro j ⟨-, row, after, hlocking, -⟩
  rw [h] at hlocking
  cases hlocking

/-- A statement after which the transaction holds what it wants next, or nothing, closes no
cycle. -/
theorem Valid.not_deadlocked_execute (hv : st.Valid) (h : ¬st.Deadlocked) {statement : Statement}
    (hi : st.transaction i = some ⟨call, [], statement⟩)
    (hpick : ∀ capabilities, statement ≠ .pick capabilities) :
    ¬(st.execute i call statement).Deadlocked := by
  have hnext := hv.execute hi
  obtain ⟨held, rows, hshape, hholds⟩ := hv.shape hi
  cases statement with
  | pick capabilities => exact absurd rfl (hpick capabilities)
  | lookUp key =>
    have hnothing : ∀ row, st.locks row ≠ some i := by
      intro row hrow
      cases hshape
      exact List.not_mem_nil ((hholds row).mp hrow)
    rw [Sessions.execute] at hnext ⊢
    split at hnext
    · exact not_deadlocked_put h hnext (.inl hnothing)
    · exact not_deadlocked_put h hnext (.inl hnothing)
  | select =>
    have hnothing : ∀ row, st.locks row ≠ some i := by
      intro row hrow
      cases hshape <;> exact List.not_mem_nil ((hholds row).mp hrow)
    rw [Sessions.execute] at hnext ⊢
    split at hnext
    · exact not_deadlocked_leave h
    · exact not_deadlocked_put h hnext (.inl hnothing)
  | check attemptId =>
    rw [Sessions.execute] at hnext ⊢
    cases hcurrent : call.evaluationId?.bind st.db.current? with
    | none => exact not_deadlocked_leave h
    | some row =>
      obtain ⟨e, a⟩ := row
      rw [hcurrent] at hnext
      dsimp only at hnext ⊢
      split_ifs at hnext ⊢ with hsame
      · subst hsame
        obtain ⟨hid, hattempt, ⟨t, htriple⟩, hholds⟩ := hv.checked hi hcurrent
        split at hnext
        · rename_i row rest hupdates
          have hrows : row :: rest = call.rows e :=
            (LockingCall.updates_spec htriple (.inr hid) hupdates).resolve_right fun h => by
              cases h.1
          refine not_deadlocked_put h hnext (.inr fun row' hrow => (hholds row').mpr ?_)
          rw [hrows] at hrow
          exact LockingCall.head_rows hid hrow
        · exact not_deadlocked_leave h
      · exact not_deadlocked_leave h
  | commit attemptId =>
    rw [Sessions.execute]
    split
    · exact not_deadlocked_leave h
    · exact not_deadlocked_leave h
  | leave => exact not_deadlocked_leave h

theorem advance_of_free {row : RowId} {rows : List RowId} {statement : Statement}
    (hi : st.transaction i = some ⟨call, row :: rows, statement⟩) (hfree : st.locks.Free i row) :
    st.advance i = (st.lock i row).put i ⟨call, rows, statement⟩ := by
  rw [Sessions.advance, hi]
  exact if_pos hfree

theorem advance_nil {statement : Statement}
    (hi : st.transaction i = some ⟨call, [], statement⟩) :
    st.advance i = st.execute i call statement := by
  rw [Sessions.advance, hi]

/-- **Every turn** closes a cycle exactly when a claim meets another call head-on in it. -/
theorem Valid.clear_iff (hv : st.Valid) (h : ¬st.Deadlocked) (turn : Turn ι) :
    st.Clear turn ↔ ¬(st.next turn).Deadlocked := by
  cases turn with
  | abort i => exact iff_of_true trivial (not_deadlocked_leave h)
  | begin i call =>
    -- a transaction that begins wants no row yet
    refine iff_of_true trivial ?_
    have hnext : (st.begin i call).Valid := hv.begin
    rw [Sessions.next]
    unfold Sessions.begin at hnext ⊢
    split at hnext
    · rename_i hi hprepare
      exact not_deadlocked_put h hnext (.inl (hv.idle i hi))
    · exact h
  | advance i =>
    rw [Sessions.next]
    cases hi : st.transaction i with
    | none =>
      refine iff_of_true (clear_of_locking ?_) ?_
      · rw [locking, hi]
      · rwa [Sessions.advance, hi]
    | some transaction =>
      obtain ⟨call, wanted, statement⟩ := transaction
      have hclaim : st.isClaim i = call.isClaim := by
        rw [isClaim, hi, Option.any_some]
      cases wanted with
      | cons row rows =>
        by_cases hfree : st.locks.Free i row
        · -- it locks the row, and wants the next one
          obtain ⟨held, taken, hat⟩ := hv.lock_at hi hfree
          rw [advance_of_free hi hfree]
          refine clear_iff_lock h hfree (hv.lock hi hfree) hat ?_ hclaim ?_
          · rw [← List.append_assoc, List.getLast?_concat]
          · rw [locking, hi]
            exact if_pos hfree
        · -- it waits
          refine iff_of_true (clear_of_locking ?_) ?_
          · rw [locking, hi]
            exact if_neg hfree
          · rw [Sessions.advance, hi]
            dsimp only
            rwa [if_neg hfree]
      | nil =>
        rw [advance_nil hi]
        by_cases hpick : ∃ capabilities, statement = .pick capabilities
        · obtain ⟨capabilities, rfl⟩ := hpick
          rw [Sessions.execute]
          cases hnext : nextClaimable capabilities st.locked st.db with
          | none =>
            refine iff_of_true (clear_of_locking ?_) (not_deadlocked_leave h)
            rw [locking, hi]
            dsimp only
            rw [hnext]
          | some row =>
            -- the pick locks a task
            obtain ⟨t, a, e⟩ := row
            obtain ⟨hfree, hat⟩ := hv.pick_at hi hnext
            refine clear_iff_lock h hfree ?_ hat rfl ?_ ?_
            · exact hv.put _ [] (fun j hne _ => Locks.take_other hfree hne) hat.shape hat.holds
            · rw [hclaim, LockingCall.picked]
              cases call.updates e a <;> rfl
            · rw [locking, hi]
              dsimp only
              rw [hnext]
        · rw [not_exists] at hpick
          refine iff_of_true (clear_of_locking ?_) (hv.not_deadlocked_execute h hi hpick)
          rw [locking, hi]
          cases statement with
          | pick capabilities => exact absurd rfl (hpick capabilities)
          | _ => rfl

end Steps

/-- **Deadlocks of the store.** In a run from any reachable database no state reached is deadlocked
exactly when no claim and other call ever meet head-on: when a step of one of them locks a row, the
other one does not hold the row that comes next while it is about to lock that row itself. -/
theorem deadlockFree_iff [Wire] [DecidableEq ι] (hr : store.Reachable db) (turns : List (Turn ι)) :
    (∀ before, before <+: turns → ¬((sessions db).run before).Deadlocked) ↔
      (sessions db).Meets Clear (sessions db).start turns := by
  have hstart : ¬(sessions (ι := ι) db).start.Deadlocked := by
    rintro ⟨i, hcycle⟩
    obtain ⟨j, ⟨-, row, hwants, -⟩, -⟩ := Relation.TransGen.head'_iff.mp hcycle
    cases hwants
  have hturn : ∀ (st : Sessions ι) turn, st.Valid → ¬st.Deadlocked →
      (st.Clear turn ↔ ¬((sessions db).next turn st).Deadlocked) :=
    fun st turn hv h => hv.clear_iff h turn
  exact (Machine.meets_iff_forall_prefix (fun st turn (hv : st.Valid) => hv.next turn) hturn
    (valid_start hr) hstart turns).symm

end Sessions

/-! ### A claim and a cancellation -/

/-- Two connections, and the transactions they are in. -/
def Sessions.pair (db : Database) (locks : Locks Bool RowId) (x y : Option Transaction) :
    Sessions Bool :=
  ⟨db, locks, fun i => if i then y else x⟩

namespace Sessions

section Pair

variable {locks : Locks Bool RowId} {x y : Option Transaction} {transaction : Transaction}
  {statement : Statement} {row : RowId} {rows : List RowId}

theorem pair_put_false :
    (pair db locks x y).put false transaction = pair db locks (some transaction) y := by
  rw [put, pair]
  congr
  funext i
  cases i <;> rfl

theorem pair_put_true :
    (pair db locks x y).put true transaction = pair db locks x (some transaction) := by
  rw [put, pair]
  congr
  funext i
  cases i <;> rfl

variable [Wire]

theorem start_pair : (sessions db).start = pair db .empty none none :=
  congrArg (Sessions.mk db .empty) (funext fun i => by cases i <;> rfl)

theorem pair_begin_false (h : call.prepare = .ok ()) :
    (pair db locks none y).next (.begin false call) =
      pair db locks (some ⟨call, [], call.opening⟩) y := by
  have hnone : (pair db locks none y).transaction false = none := rfl
  rw [Sessions.next, begin, hnone, h]
  exact pair_put_false

theorem pair_begin_true (h : call.prepare = .ok ()) :
    (pair db locks x none).next (.begin true call) =
      pair db locks x (some ⟨call, [], call.opening⟩) := by
  have hnone : (pair db locks x none).transaction true = none := rfl
  rw [Sessions.next, begin, hnone, h]
  exact pair_put_true

theorem pair_pick {capabilities : Option (List String)}
    (hnext : nextClaimable capabilities (fun id => (locks (.task id)).isSome) db =
      some (t, a, e)) :
    (pair db locks (some ⟨call, [], .pick capabilities⟩) y).next (.advance false) =
      pair db (locks.take false (.task t.attemptId)) (some (call.picked t a e)) y := by
  have hnext' : nextClaimable capabilities
      (pair db locks (some ⟨call, [], .pick capabilities⟩) y).locked
        (pair db locks (some ⟨call, [], .pick capabilities⟩) y).db = some (t, a, e) := hnext
  rw [Sessions.next, advance_nil rfl, execute, hnext']
  exact pair_put_false

theorem pair_lock_true (hfree : locks.Free true row) :
    (pair db locks x (some ⟨call, row :: rows, statement⟩)).next (.advance true) =
      pair db (locks.take true row) x (some ⟨call, rows, statement⟩) := by
  have hadvance : (pair db locks x (some ⟨call, row :: rows, statement⟩)).advance true = _ :=
    advance_of_free rfl hfree
  rw [Sessions.next, hadvance]
  exact pair_put_true

theorem pair_select (hid : call.evaluationId? = some e.evaluationId) (htriple : Triple db e a t) :
    (pair db locks x (some ⟨call, [], .select⟩)).next (.advance true) =
      pair db locks x (some ⟨call, [.evaluation e.evaluationId, .attempt e.currentAttemptId],
        .check e.currentAttemptId⟩) := by
  have hcurrent : call.evaluationId?.bind
      (pair db locks x (some ⟨call, [], .select⟩)).db.current? = some (e, a) := by
    rw [hid, Option.bind_some]
    exact htriple.current?
  rw [Sessions.next, advance_nil rfl, execute, hcurrent]
  dsimp only
  rw [htriple.attemptId, pair_put_true]

theorem pair_check (hid : call.evaluationId? = some e.evaluationId) (htriple : Triple db e a t)
    (hupdates : call.updates e a = .ok (row :: rows)) :
    (pair db locks x (some ⟨call, [], .check e.currentAttemptId⟩)).next (.advance true) =
      pair db locks x (some ⟨call, row :: rows, .commit e.currentAttemptId⟩) := by
  have hcurrent : call.evaluationId?.bind
      (pair db locks x (some ⟨call, [], .check e.currentAttemptId⟩)).db.current? =
        some (e, a) := by
    rw [hid, Option.bind_some]
    exact htriple.current?
  rw [Sessions.next, advance_nil rfl, execute, hcurrent]
  dsimp only
  rw [if_pos htriple.attemptId, hupdates]
  exact pair_put_true

/-- A claim that picks a task, and then a call that locks the evaluation and the attempt, and goes
on to them and the task, wait for each other. -/
theorem deadlocked_pair {claim other : LockingCall} {capabilities : Option (List String)}
    (htriple : Triple db e a t) (hprepare : claim.prepare = .ok ())
    (hopening : claim.opening = .pick capabilities)
    (hnext : nextClaimable capabilities (fun _ => false) db = some (t, a, e))
    (hupdates : claim.updates e a =
      .ok [.attempt e.currentAttemptId, .evaluation e.evaluationId, .task e.currentAttemptId])
    (hprepare' : other.prepare = .ok ()) (hopening' : other.opening = .select)
    (hid : other.evaluationId? = some e.evaluationId)
    (hupdates' : other.updates e a =
      .ok [.evaluation e.evaluationId, .attempt e.currentAttemptId, .task e.currentAttemptId]) :
    ((sessions db).run [.begin false claim, .begin true other, .advance false, .advance true,
      .advance true, .advance true, .advance true, .advance true, .advance true]).Deadlocked := by
  have htask : t.attemptId = e.currentAttemptId := Table.key_of_find? htriple.task
  have hturn : ∀ (st : Sessions Bool) turn, (sessions db).next turn st = st.next turn :=
    fun _ _ => rfl
  have hpick : (pair db .empty (some ⟨claim, [], .pick capabilities⟩)
      (some ⟨other, [], .select⟩)).next (.advance false) =
        pair db (Locks.empty.take false (.task e.currentAttemptId)) (some (claim.picked t a e))
          (some ⟨other, [], .select⟩) := htask ▸ pair_pick hnext
  -- the other call locks both rows twice, the second time to update them
  have hevaluation : (Locks.empty.take false (RowId.task e.currentAttemptId)).Free true
      (.evaluation e.evaluationId) := by
    refine (Locks.free_take_of_ne ?_).mpr Locks.free_empty
    nofun
  have hattempt : ((Locks.empty.take false (RowId.task e.currentAttemptId)).take true
      (.evaluation e.evaluationId)).Free true (.attempt e.currentAttemptId) := by
    refine .take ((Locks.free_take_of_ne ?_).mpr Locks.free_empty)
    nofun
  simp only [Machine.run, Machine.runFrom_cons, Machine.runFrom_nil, hturn, start_pair,
    pair_begin_false hprepare, hopening, pair_begin_true hprepare', hopening', hpick,
    pair_select hid htriple, pair_lock_true hevaluation, pair_lock_true hattempt,
    pair_check hid htriple hupdates', pair_lock_true hevaluation.take.take,
    pair_lock_true hattempt.take.take]
  -- the claim waits for the attempt, and the other call for the task
  refine Locks.HeadOn.deadlocked (i := false) (j := true)
    ⟨⟨Bool.false_ne_true, .attempt e.currentAttemptId, ?_, Locks.take_self⟩,
      ⟨Bool.false_ne_true.symm, .task e.currentAttemptId, rfl, ?_⟩⟩
  · rw [LockingCall.picked, hupdates]
    rfl
  · simp [pair, Locks.take_of_ne]

end Pair
end Sessions

section Json

attribute [local instance] jsonWire

/-- The claim of the fixture's task. -/
def fixtureClaiming : LockingCall := .claim fixtureClaim none none

/-- The cancellation of the fixture. -/
def fixtureCancelling : LockingCall := .cancel fixtureCancel

/-- A claim picks the fixture's task, and a cancellation locks its evaluation and its attempt, and
goes on to its updates. -/
def fixtureTurns : List (Turn Bool) :=
  [.begin false fixtureClaiming, .begin true fixtureCancelling, .advance false, .advance true,
    .advance true, .advance true, .advance true, .advance true, .advance true]

/-- What the two calls are to update of the fixture's evaluation. -/
private theorem fixture_updates {payload : List UInt8}
    (hpayload : encodeEvaluationRequest fixtureRequest = .ok payload) :
    fixtureClaiming.updates (evaluationRow fixtureRequest payload 0)
        (attemptRow fixtureRequest payload 0) =
      .ok [.attempt fixtureRequest.attemptId, .evaluation fixtureRequest.evaluationId,
        .task fixtureRequest.attemptId] ∧
    fixtureCancelling.updates (evaluationRow fixtureRequest payload 0)
        (attemptRow fixtureRequest payload 0) =
      .ok [.evaluation fixtureRequest.evaluationId, .attempt fixtureRequest.attemptId,
        .task fixtureRequest.attemptId] := by
  have hdecode : decodeEvaluationRequest (attemptRow fixtureRequest payload 0).requestPayload =
      .ok fixtureRequest := decode_of_encode (WireType.json_lossless _) hpayload
  obtain ⟨result, hencode, -⟩ := exists_encode_cancellation
  have hencode' : encodeEvaluationResult fixtureCancel.result = .ok result := hencode
  constructor
  · have hnames : fixtureRequest.Names (attemptRow fixtureRequest payload 0) := ⟨rfl, rfl, rfl⟩
    simp only [fixtureClaiming, LockingCall.updates, hdecode, reportAs_ok, ok_bind,
      refuseIf_neg (not_not.mpr hnames)]
    rfl
  · have hstored : storedResult (evaluationRow fixtureRequest payload 0)
        fixtureCancel.idempotencyKey result = .ok false := rfl
    have hopen : ¬(¬((evaluationRow fixtureRequest payload 0).state = .queued ∨
        (evaluationRow fixtureRequest payload 0).state = .leased) ∨
        ¬((attemptRow fixtureRequest payload 0).state = .queued ∨
          (attemptRow fixtureRequest payload 0).state = .leased)) := by
      simp [evaluationRow, attemptRow]
    have hattempt : ¬(evaluationRow fixtureRequest payload 0).currentAttemptId ≠
        fixtureCancel.result.identity.attemptId := not_not.mpr rfl
    have hidentity : ¬EvaluationIdentity.fromRequest fixtureRequest ≠
        fixtureCancel.result.identity := not_not.mpr rfl
    simp only [fixtureCancelling, LockingCall.updates, hencode', reportAs_ok, ok_bind, hstored,
      Bool.false_eq_true, if_false, refuseIf_neg hopen, refuseIf_neg hattempt, hdecode,
      refuseIf_neg hidentity]
    rfl

/-- Once the fixture is created, the two calls come to wait for each other. -/
private theorem exists_deadlock :
    ∃ db, store.Reachable db ∧ ((sessions db).run fixtureTurns).Deadlocked := by
  obtain ⟨payload, db, hrun, hpayload, hcreated, holdest, -⟩ :=
    @exists_oldest_fixture ⟨0, by decide⟩ none nofun
  have hr : store.Reachable db := ⟨_, hrun⟩
  have hc := coupled_of_reachable hr
  obtain ⟨a, e, hnext⟩ := hc.next_of_isOldest holdest
  obtain ⟨htriple, -⟩ := hc.linked.triple_of_claimable (List.argmin_mem hnext)
  obtain ⟨rfl, rfl, -⟩ : e = evaluationRow fixtureRequest payload 0 ∧
      a = attemptRow fixtureRequest payload 0 ∧ _ := by
    rcases hcreated.triple_cases htriple with h | h
    · exact h
    · cases h.evaluation
  obtain ⟨hclaim, hcancel⟩ := fixture_updates hpayload
  have hprepare : fixtureCancelling.prepare = .ok () := by
    obtain ⟨result, hencode, -⟩ := exists_encode_cancellation
    have hencode' : encodeEvaluationResult fixtureCancel.result = .ok result := hencode
    have hsame : ¬(fixtureCancel.result.status ≠ .cancelled ∨
        fixtureCancel.result.identity.evaluationId ≠ fixtureCancel.evaluationId) := by
      rw [not_or]
      exact ⟨not_not.mpr rfl, not_not.mpr rfl⟩
    simp only [fixtureCancelling, LockingCall.prepare, refuseIf_neg hsame, ok_bind, hencode',
      reportAs_ok]
    rfl
  exact ⟨db, hr, Sessions.deadlocked_pair htriple rfl rfl hnext hclaim hprepare rfl rfl hcancel⟩

/-- **A claim and a cancellation** of one queued evaluation wait for each other for ever. -/
theorem claim_cancel_deadlocked :
    ¬∀ db, store.Reachable db → ∀ turns : List (Turn Bool),
      ¬((sessions db).run turns).Deadlocked := by
  obtain ⟨db, hr, hdead⟩ := exists_deadlock
  exact fun h => h db hr fixtureTurns hdead

/-- In this run the two meet head-on. -/
theorem deadlockFree_iff_fixture :
    ∃ db, store.Reachable db ∧
      ¬(sessions db).Meets Sessions.Clear (sessions db).start fixtureTurns := by
  obtain ⟨db, hr, hdead⟩ := exists_deadlock
  refine ⟨db, hr, fun hclear => ?_⟩
  exact (Sessions.deadlockFree_iff hr fixtureTurns).mpr hclear fixtureTurns List.prefix_rfl hdead

end Json

end OpenOJ
