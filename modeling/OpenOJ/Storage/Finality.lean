import OpenOJ.Storage.Fencing
import OpenOJ.Storage.Creation

/-!
# First terminal wins

Once an evaluation has a terminal result, no run changes its rows. Three kinds of calls can finish
an evaluation (`Operation.finishes?`): the submissions of a result, by a node and by the control
plane, and cancellations. Those that get as far as the stored result (`Reaches`) compare their own
key and bytes with the stored ones:

* `submitResult_stored`, `cancelEvaluation_stored`: each transaction, on an evaluation with a
  result;
* `Reaches.step_eq`: a call that reaches the stored result changes nothing, and its answer is
  `terminalAnswer`: the report for the same key and bytes, and else a conflict;
* `reaches_of_ok`: conversely, a call that is answered with a report presented the stored key and
  bytes.

`TerminalFinal` says all this of every later run and every later call, and `WritesResult` is a call
that changes the result of an evaluation. By `first_terminal_wins`, from every reachable database
and for any run, at most one of its calls writes the result of an evaluation, and what it wrote is
final.
-/

namespace OpenOJ

open Outcome Relation

section Terminal

variable [Wire] {db : Database}

/-! ### Calls that reach the stored result -/

/-- The evaluation a submission or cancellation is for. -/
def Operation.finishes? : Operation → Option EvaluationId
  | .submitResult command => some command.result.identity.evaluationId
  | .judgeSubmitResult command => some command.result.identity.evaluationId
  | .cancelEvaluation command => some command.evaluationId
  | _ => none

/-- The call gets as far as the stored-result check of an evaluation, with a key and an
encoded result. -/
inductive Reaches (db : Database) :
    Operation → EvaluationId → IdempotencyKey → List UInt8 → Prop where
  | submission {op command payload} (hop : op.submission? db = some command)
      (hencode : encodeEvaluationResult command.result = .ok payload) :
      Reaches db op command.result.identity.evaluationId command.idempotencyKey payload
  | cancellation {command payload} (hstatus : command.result.status = .cancelled)
      (hid : command.result.identity.evaluationId = command.evaluationId)
      (hencode : encodeEvaluationResult command.result = .ok payload) :
      Reaches db (.cancelEvaluation command) command.evaluationId command.idempotencyKey payload

/-- The answer to a call that finds a stored result. -/
def terminalAnswer (db : Database) (id : EvaluationId) (storedKey key : IdempotencyKey)
    (stored payload : List UInt8) : Except StoreError EvaluationSnapshot :=
  if storedKey = key then
    if stored = payload then evaluationStatus db id else .error .idempotencyConflict
  else .error .terminalConflict

omit [Wire] in
private theorem storedResult_of_stored {e : EvaluationRow} {storedKey : IdempotencyKey}
    {stored : List UInt8} (hresult : e.terminalResult = some stored)
    (hkey : e.resultIdempotencyKey = some storedKey) (key : IdempotencyKey)
    (payload : List UInt8) :
    storedResult e key payload =
      if storedKey = key then
        if stored = payload then .ok true else .error .idempotencyConflict
      else .error .terminalConflict := by
  unfold storedResult
  rw [hresult, hkey]
  simp only [Option.some.injEq]
  split
  · split
    · rename_i h
      simp [refuseIf, h, bind, Except.bind, pure, Except.pure]
    · rename_i h
      simp [refuseIf, h, bind, Except.bind]
  · rfl

/-- A submission that finds a stored result only compares. -/
theorem submitResult_stored {command : SubmitResult} {e : EvaluationRow} {a : AttemptRow}
    {storedKey : IdempotencyKey} {stored payload : List UInt8}
    (hcurrent : db.current? command.result.identity.evaluationId = some (e, a))
    (hresult : e.terminalResult = some stored) (hkey : e.resultIdempotencyKey = some storedKey)
    (hencode : encodeEvaluationResult command.result = .ok payload) :
    submitResult command db = (terminalAnswer db command.result.identity.evaluationId storedKey
      command.idempotencyKey stored payload, db) := by
  unfold submitResult terminalAnswer
  simp only [submitTransaction, hencode, reportAs_ok, ok_bind, toI64_unixMillis, orRefuse_some,
    hcurrent, storedResult_of_stored hresult hkey]
  split
  · split
    · rfl
    · rfl
  · rfl

/-- A cancellation that finds a stored result only compares. -/
theorem cancelEvaluation_stored {command : CancelEvaluation} {e : EvaluationRow}
    {a : AttemptRow} {storedKey : IdempotencyKey} {stored payload : List UInt8}
    (hcurrent : db.current? command.evaluationId = some (e, a))
    (hresult : e.terminalResult = some stored) (hkey : e.resultIdempotencyKey = some storedKey)
    (hstatus : command.result.status = .cancelled)
    (hid : command.result.identity.evaluationId = command.evaluationId)
    (hencode : encodeEvaluationResult command.result = .ok payload) :
    cancelEvaluation command db = (terminalAnswer db command.evaluationId storedKey
      command.idempotencyKey stored payload, db) := by
  have hguard : ¬(command.result.status ≠ .cancelled ∨
      command.result.identity.evaluationId ≠ command.evaluationId) := by
    simp [hstatus, hid]
  unfold cancelEvaluation terminalAnswer
  simp only [cancelTransaction, refuseIf_neg hguard, hencode, reportAs_ok, ok_bind,
    toI64_unixMillis, orRefuse_some, hcurrent, storedResult_of_stored hresult hkey]
  split
  · split
    · rfl
    · rfl
  · rfl

/-- **The stored-result check**: a call that reaches it on an evaluation with a result changes
nothing and is answered by comparing keys and bytes. -/
theorem Reaches.step_eq {op : Operation} {id : EvaluationId} {key storedKey : IdempotencyKey}
    {payload stored : List UInt8} (h : Reaches db op id key payload) {e : EvaluationRow}
    {a : AttemptRow} (hcurrent : db.current? id = some (e, a))
    (hresult : e.terminalResult = some stored)
    (hkey : e.resultIdempotencyKey = some storedKey) :
    store.step op db = (.snapshot (terminalAnswer db id storedKey key stored payload), db) := by
  cases h with
  | @submission _ command _ hop hencode =>
    have hsubmit := submitResult_stored hcurrent hresult hkey hencode
    cases op with
    | submitResult c =>
      obtain rfl := Option.some.inj hop
      exact congrArg (Prod.map Answer.snapshot id) hsubmit
    | judgeSubmitResult c =>
      have hprepare : judgeSubmitPrepare c db = .ok command := by
        have := hop
        unfold Operation.submission? at this
        cases h : judgeSubmitPrepare c db <;> simp_all [Except.toOption]
      have hjudge : judgeSubmitResult c db = submitResult command db := by
        unfold judgeSubmitResult
        rw [hprepare]
      exact congrArg (Prod.map Answer.snapshot id) (hjudge.trans hsubmit)
    | _ => cases hop
  | cancellation hstatus hid hencode =>
    exact congrArg (Prod.map Answer.snapshot id)
      (cancelEvaluation_stored hcurrent hresult hkey hstatus hid hencode)

private theorem encoded_of_submit {command : SubmitResult} {snapshot : EvaluationSnapshot}
    (h : (submitResult command db).1 = .ok snapshot) :
    ∃ payload, encodeEvaluationResult command.result = .ok payload := by
  unfold submitResult at h
  rcases transact_cases (submitTransaction command db) (fun id db => evaluationStatus db id) db
    with ⟨e, -, heq⟩ | ⟨id, db', hok, -⟩
  · rw [heq] at h
    cases h
  · simp only [submitTransaction, bind_eq_ok, reportAs_eq_ok] at hok
    obtain ⟨payload, hpayload, -⟩ := hok
    exact ⟨payload, hpayload⟩

/-- A submission or cancellation that answers `.ok` has reached the stored-result check. -/
theorem reaches_of_ok {op : Operation} {id : EvaluationId} (hop : op.finishes? = some id)
    {snapshot : EvaluationSnapshot} (h : store.answer op db = .snapshot (.ok snapshot)) :
    ∃ key payload, Reaches db op id key payload := by
  cases op with
  | submitResult command =>
    obtain rfl := Option.some.inj hop
    obtain ⟨payload, hpayload⟩ := encoded_of_submit (Answer.snapshot.inj h)
    exact ⟨_, payload, .submission rfl hpayload⟩
  | judgeSubmitResult command =>
    obtain rfl := Option.some.inj hop
    have hanswer : (judgeSubmitResult command db).1 = .ok snapshot := Answer.snapshot.inj h
    unfold judgeSubmitResult at hanswer
    split at hanswer
    · cases hanswer
    · rename_i submission hprepare
      obtain ⟨payload, hpayload⟩ := encoded_of_submit hanswer
      -- preparing a submission keeps its result
      have hid : submission.result = command.result := by
        simp only [judgeSubmitPrepare, bind_eq_ok, pure, Except.pure, Except.ok.injEq] at hprepare
        obtain ⟨-, -, -, -, -, -, key, -, rfl⟩ := hprepare
        rfl
      refine ⟨submission.idempotencyKey, payload, hid ▸ .submission ?_ hpayload⟩
      simp [Operation.submission?, hprepare, Except.toOption]
  | cancelEvaluation command =>
    obtain rfl := Option.some.inj hop
    have hanswer : (cancelEvaluation command db).1 = .ok snapshot := Answer.snapshot.inj h
    unfold cancelEvaluation at hanswer
    rcases transact_cases (cancelTransaction command db) (fun id db => evaluationStatus db id) db
      with ⟨e, -, heq⟩ | ⟨id, db', hok, -⟩
    · rw [heq] at hanswer
      cases hanswer
    · simp only [cancelTransaction, bind_eq_ok, refuseIf_eq_ok, not_or, not_not, reportAs_eq_ok,
        exists_const] at hok
      obtain ⟨⟨hstatus, hid⟩, payload, hpayload, -⟩ := hok
      exact ⟨_, payload, .cancellation hstatus hid hpayload⟩
  | _ => cases hop

/-! ### Stored results for ever -/

/-- The call changes the stored result of an evaluation. -/
def WritesResult (db : Database) (op : Operation) (id : EvaluationId) : Prop :=
  (store.next op db).result? id ≠ db.result? id

/-- What holds for ever once an evaluation has a result. -/
structure TerminalFinal (db : Database) (e : EvaluationRow) (a : AttemptRow) (t : TaskRow)
    (storedKey : IdempotencyKey) (stored : List UInt8) : Prop where
  /-- No run changes the rows: the result, its key, the states and the current attempt stay. -/
  frozen : ∀ ops, Triple (store.runFrom db ops) e a t
  /-- A call that reaches the stored result after any run is answered by comparison. -/
  answered : ∀ ops op key payload,
    Reaches (store.runFrom db ops) op e.evaluationId key payload →
      store.step op (store.runFrom db ops) =
        (.snapshot (terminalAnswer (store.runFrom db ops) e.evaluationId storedKey key stored
          payload), store.runFrom db ops)
  /-- A call that answers `.ok` after any run presented the stored key and bytes. -/
  accepted : ∀ ops op snapshot, op.finishes? = some e.evaluationId →
    store.answer op (store.runFrom db ops) = .snapshot (.ok snapshot) →
      Reaches (store.runFrom db ops) op e.evaluationId storedKey stored

private theorem terminalFinal (hr : store.Reachable db) {e : EvaluationRow} {a : AttemptRow}
    {t : TaskRow} {storedKey : IdempotencyKey} {stored : List UInt8} (h : Triple db e a t)
    (hresult : e.terminalResult = some stored) (hkey : e.resultIdempotencyKey = some storedKey) :
    TerminalFinal db e a t storedKey stored := by
  have hended : e.state.isTerminal = true := by
    rw [← ((coupled_of_reachable hr).of_triple h).result, hresult]
    rfl
  have hfrozen := fun ops => frozen_runFrom hr h hended ops
  refine ⟨hfrozen, fun ops op key payload hreaches => ?_, fun ops op snapshot hop hanswer => ?_⟩
  · exact hreaches.step_eq (hfrozen ops).current? hresult hkey
  · obtain ⟨key, payload, hreaches⟩ := reaches_of_ok hop hanswer
    have hstep := hreaches.step_eq (hfrozen ops).current? hresult hkey
    have hok : terminalAnswer (store.runFrom db ops) e.evaluationId storedKey key stored payload =
        .ok snapshot :=
      Answer.snapshot.inj ((congrArg Prod.fst hstep).symm.trans hanswer)
    unfold terminalAnswer at hok
    split at hok
    · rename_i heq
      split at hok
      · rename_i heq'
        rw [heq, heq']
        exact hreaches
      · cases hok
    · cases hok

/-- A stored result is never changed. -/
private theorem result_next (hr : store.Reachable db) {id : EvaluationId} {stored : List UInt8}
    (h : db.result? id = some stored) (op : Operation) :
    (store.next op db).result? id = some stored := by
  obtain ⟨e, he, hresult⟩ := Option.bind_eq_some_iff.mp h
  obtain ⟨a, t, hcoupled⟩ := (coupled_of_reachable hr).evaluations id e he
  obtain rfl : e.evaluationId = id := Table.key_of_find? he
  have hended : e.state.isTerminal = true := by
    rw [← hcoupled.result, hresult]
    rfl
  have hnext := frozen_runFrom hr hcoupled.triple hended [op]
  rw [Database.result?, show store.next op db = store.runFrom db [op] from rfl, hnext.evaluation]
  exact hresult

/-- **First terminal wins.** From every reachable database, whatever the run: of all its calls
at most one writes the result of an evaluation, and once there is one, it is final. -/
theorem first_terminal_wins (hr : store.Reachable db) (id : EvaluationId) :
    (∀ before op after op', WritesResult (store.runFrom db before) op id →
      ¬WritesResult (store.runFrom db (before ++ op :: after)) op' id) ∧
      ∀ e stored, db.evaluations.find? id = some e → e.terminalResult = some stored →
        ∃ a t storedKey, e.resultIdempotencyKey = some storedKey ∧
          TerminalFinal db e a t storedKey stored := by
  constructor
  · intro before op after op' hwrites
    have hr₁ := hr.runFrom before
    -- a call only writes where there is no result yet
    have hsome : ((store.next op (store.runFrom db before)).result? id).isSome := by
      rw [Option.isSome_iff_ne_none]
      intro hnone
      cases hresult : (store.runFrom db before).result? id with
      | none => exact hwrites (hnone.trans hresult.symm)
      | some stored => rw [result_next hr₁ hresult op] at hnone; cases hnone
    obtain ⟨stored, hstored⟩ := Option.isSome_iff_exists.mp hsome
    have hr₂ := hr₁.next op
    have hlater : (store.runFrom db (before ++ op :: after)).result? id = some stored := by
      rw [store.runFrom_append, Machine.runFrom_cons]
      exact Machine.run_preserves (P := fun db => db.result? id = some stored)
        (fun db op hr h => result_next hr h op) hr₂ hstored after
    refine not_not.mpr ?_
    rw [hlater]
    exact result_next (hr.runFrom _) hlater op'
  · intro e stored he hresult
    obtain ⟨a, t, hcoupled⟩ := (coupled_of_reachable hr).evaluations id e he
    have hkey : e.resultIdempotencyKey.isSome := by
      rw [hcoupled.resultKey, ← hcoupled.result, hresult]
      rfl
    obtain ⟨storedKey, hkey⟩ := Option.isSome_iff_exists.mp hkey
    exact ⟨a, t, storedKey, hkey, terminalFinal hr hcoupled.triple hresult hkey⟩

end Terminal

section Json

attribute [local instance] jsonWire

/-- A cancellation of the fixture, a second after it is created. -/
def fixtureCancel : CancelEvaluation where
  idempotencyKey := ⟨"cancel_01", by decide +kernel⟩
  evaluationId := fixtureRequest.evaluationId
  result := fixtureCancellation
  now := fixtureClaim.now

/-- The fixture is cancelled where it is open, and no result was stored before. -/
theorem cancel_fixture {db : Database} {e : EvaluationRow} {a : AttemptRow} {t : TaskRow}
    (hr : store.Reachable db) (htriple : Triple db e a t)
    (hid : fixtureCancel.evaluationId = e.evaluationId)
    (hopen : e.state = .queued ∨ e.state = .leased)
    (hdecode : decodeEvaluationRequest a.requestPayload = .ok fixtureRequest)
    (hnames : fixtureRequest.Names a) (he : e.createdAtMs = 0) (ha : a.createdAtMs = 0)
    (ht : t.createdAtMs = 0) (hnew : ∀ s ∈ db.evaluations.rows, s.resultIdempotencyKey = none) :
    ∃ db' stored, store.next (.cancelEvaluation fixtureCancel) db = db' ∧
      Finished db db' e a t .cancelled stored fixtureCancel.idempotencyKey
        fixtureCancel.now.value := by
  have hc := coupled_of_reachable hr
  obtain ⟨result, hencode, hresult⟩ := exists_encode_cancellation
  have hkey : ∀ s ∈ db.evaluations.rows,
      s.resultIdempotencyKey ≠ some fixtureCancel.idempotencyKey := by
    intro s hs hkey
    rw [hnew s hs] at hkey
    cases hkey
  have hle : (0 : Int) ≤ fixtureCancel.now.value := Int.natCast_nonneg _
  obtain ⟨db', hcancel⟩ : ∃ db', cancelTransaction fixtureCancel db =
      .ok (fixtureCancel.evaluationId, db') :=
    cancelTransaction_ok hc htriple hopen hid rfl hdecode hnames rfl hencode hresult (he ▸ hle)
      (ha ▸ hle) (ht ▸ hle) hkey
  have hstep : store.next (.cancelEvaluation fixtureCancel) db = db' := by
    rw [next_cancelEvaluation, cancelEvaluation, hcancel, transact_ok]
  obtain ⟨-, stored, -, e', a', hcurrent, hfinished⟩ := cancelTransaction_spec hc.linked hcancel
  have hsame : db.current? fixtureCancel.evaluationId = some (e, a) := hid ▸ htriple.current?
  obtain ⟨rfl, rfl⟩ : e = e' ∧ a = a' := by simpa using hsame.symm.trans hcurrent
  rcases hfinished with ⟨-, -, hstored⟩ | ⟨-, -, t', hfinished⟩
  · rw [hnew e (Table.mem_of_find? htriple.evaluation)] at hstored
    cases hstored
  · obtain rfl : t = t' :=
      Option.some.inj (htriple.task.symm.trans hfinished.triple.task)
    exact ⟨db', stored, hstep, hfinished⟩

/-- The store after the fixture was created and cancelled. -/
theorem exists_cancelled_fixture :
    ∃ db e a t stored, store.Reachable db ∧ Triple db e a t ∧
      e.evaluationId = fixtureRequest.evaluationId ∧ e.state = .cancelled ∧
        e.terminalResult = some stored ∧ a.nodeId = none := by
  obtain ⟨payload, db, hrun, hpayload, hcreated⟩ :=
    exists_created fixtureRequest fixtureParts_mediaType (by decide +kernel) ⟨0, by decide⟩
  have hr : store.Reachable db := ⟨_, hrun⟩
  have hdecode := decode_of_encode (WireType.json_lossless _) hpayload
  obtain ⟨db', stored, hstep, h⟩ := cancel_fixture hr hcreated.triple rfl (.inl rfl) hdecode
    ⟨rfl, rfl, rfl⟩ rfl rfl rfl hcreated.no_result
  exact ⟨db', _, _, _, stored, hstep ▸ hr.next _, h.rewritten.triple', rfl, rfl, rfl, rfl⟩

/-- The fixture, once it is cancelled, stays as it is. -/
theorem first_terminal_wins_fixture :
    ∃ db e stored a t storedKey, store.Reachable db ∧
      db.evaluations.find? fixtureRequest.evaluationId = some e ∧ e.state = .cancelled ∧
        e.terminalResult = some stored ∧ TerminalFinal db e a t storedKey stored := by
  obtain ⟨db, e, a, t, stored, hr, htriple, hid, hcancelled, hstored, -⟩ :=
    exists_cancelled_fixture
  have he := hid ▸ htriple.evaluation
  obtain ⟨b, s, storedKey, -, hfinal⟩ :=
    (first_terminal_wins hr fixtureRequest.evaluationId).2 e stored he hstored
  exact ⟨db, e, stored, b, s, storedKey, hr, he, hcancelled, hstored, hfinal⟩

end Json
end OpenOJ
