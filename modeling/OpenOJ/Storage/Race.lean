import OpenOJ.Foundation.Race
import OpenOJ.Storage.Sweep

/-!
# Races of creations and of retries

A creation and a retry look their idempotency key up and write in a later step when it is not
recorded (`createCall`, `retryCall`). Any number of such calls for one request may mix their steps,
be cut off before a step takes effect or after it, and go on while others do. As long as every write
finds its key still unrecorded, they come to one evaluation, or one new attempt.

* `createEvaluation_recorded`, `retryExpired_recorded`: a call whose key is recorded is told of what
  is recorded;
* `create_race`, `retry_race`: a race of confirmed calls is `Settled`: the database was changed once
  or not at all, every call that took both of its steps without a fault is told of what is recorded
  in it, and an answer of any other kind went to a call that a fault befell;
* `races_settle`: so do all creations of one request (`Creatable`) and all retries with one next
  request (`Retryable`), from every reachable database, however their steps are mixed.

Without the condition two calls may overlap (`overlapping`). The second write then comes too late
and is refused, although its key and its request are those that were recorded: `createWrite_again`
and `retryWrite_again` say why, and `overlapping_calls_refused` is such a race.
-/

namespace OpenOJ

open Outcome Race

/-! ### Calls by key -/

section Calls

/-- A call that answers what is recorded under its key, and else records it. -/
def keyedCall [Wire] (lookup : Database → Except StoreError (Option EvaluationId))
    (write : Database → Except StoreError (EvaluationId × Database)) :
    SplitCall Database Unit (Except StoreError EvaluationSnapshot) where
  lookup db :=
    match lookup db with
    | .ok none => none
    | .ok (some id) => some (evaluationStatus db id)
    | .error e => some (.error e)
  write _ db := transact (write db) (fun id db => evaluationStatus db id) db

variable [Wire]

/-- The two steps of `create_evaluation`. -/
def createCall (command : CreateEvaluation) :
    SplitCall Database Unit (Except StoreError EvaluationSnapshot) :=
  keyedCall
    (fun db => do
      let payload ← reportAs .corruptData (encodeEvaluationRequest command.request)
      createLookup command.request.idempotencyKey payload db)
    (fun db => do
      let payload ← reportAs .corruptData (encodeEvaluationRequest command.request)
      return (command.request.evaluationId, ← createWrite command payload db))

/-- The two steps of `retry_expired`. -/
def retryCall (command : RetryExpired) :
    SplitCall Database Unit (Except StoreError EvaluationSnapshot) :=
  keyedCall
    (fun db => do
      let _ ← orRefuse .invalidTime (toI64 command.now.value)
      let payload ← reportAs .corruptData (encodeEvaluationRequest command.request)
      retryLookup command.request.idempotencyKey payload db)
    (fun db => do
      let now ← orRefuse .invalidTime (toI64 command.now.value)
      let payload ← reportAs .corruptData (encodeEvaluationRequest command.request)
      return (command.request.evaluationId, ← retryWrite command payload now db))

/-- A creation is its two steps, one right after the other. -/
theorem createCall_alone (command : CreateEvaluation) (db : Database) :
    (createCall command).alone () db = createEvaluation command db := by
  unfold createEvaluation createTransaction SplitCall.alone createCall keyedCall
  cases reportAs StoreError.corruptData (encodeEvaluationRequest command.request) with
  | error e => rfl
  | ok payload =>
    simp only [ok_bind]
    rcases createLookup command.request.idempotencyKey payload db with e | _ | id <;> rfl

/-- A retry is its two steps, one right after the other. -/
theorem retryCall_alone (command : RetryExpired) (db : Database) :
    (retryCall command).alone () db = retryExpired command db := by
  unfold retryExpired retryTransaction SplitCall.alone retryCall keyedCall
  rw [toI64_unixMillis]
  cases reportAs StoreError.corruptData (encodeEvaluationRequest command.request) with
  | error e => rfl
  | ok payload =>
    simp only [orRefuse_some, ok_bind]
    rcases retryLookup command.request.idempotencyKey payload db with e | _ | id <;> rfl

/-- The race of some calls on one database. A call that is cut off is refused as unavailable. -/
def keyedRace {ι : Type} [DecidableEq ι]
    (calls : ι → SplitCall Database Unit (Except StoreError EvaluationSnapshot)) (db : Database) :
    Machine (State ι Database (Except StoreError EvaluationSnapshot)) (Move ι Unit Empty) Unit :=
  machine calls (.error .unavailable) (fun e _ => e.elim) db

end Calls

/-! ### Rows by key -/

/-- The only row with a property. -/
def OnlyRow {ρ : Type} (rows : List ρ) (p : ρ → Prop) (row : ρ) : Prop :=
  ∀ r, r ∈ rows ∧ p r ↔ r = row

theorem OnlyRow.find? {ρ : Type} {rows : List ρ} {p : ρ → Prop} [DecidablePred p] {row : ρ}
    (h : OnlyRow rows p row) : rows.find? (fun r => p r) = some row := by
  obtain ⟨hmem, hrow⟩ := (h row).mpr rfl
  cases hfound : rows.find? (fun r => p r) with
  | none => exact absurd hrow (by simpa using List.find?_eq_none.mp hfound row hmem)
  | some r =>
    have hr : p r := by simpa using List.find?_some hfound
    rw [(h r).mp ⟨List.mem_of_find?_eq_some hfound, hr⟩]

/-- A row with a unique key is the only one with it. -/
theorem onlyRow_of_mem {ρ : Type} [Relation.{0, 0} ρ] {table : Table ρ} {p : ρ → Prop} {row : ρ}
    (hunique : ∀ r s, Relation.Apart r s → ¬(p r ∧ p s)) (hmem : row ∈ table.rows)
    (hrow : p row) : OnlyRow table.rows p row := by
  refine fun r => ⟨fun ⟨hr, hpr⟩ => ?_, ?_⟩
  · by_contra hne
    exact hunique r row (Table.apart_of_ne hr hmem hne) ⟨hpr, hrow⟩
  · rintro rfl
    exact ⟨hmem, hrow⟩

variable {db : Database} {request : EvaluationRequest} {payload : List UInt8}

/-- The only evaluation created under the request's key. -/
def OnlyEvaluation (db : Database) (request : EvaluationRequest) (e : EvaluationRow) : Prop :=
  OnlyRow db.evaluations.rows (fun e => e.creationIdempotencyKey = request.idempotencyKey) e

/-- The only attempt under the request's key. -/
def OnlyAttempt (db : Database) (request : EvaluationRequest) (a : AttemptRow) : Prop :=
  OnlyRow db.attempts.rows (fun a => a.attemptIdempotencyKey = request.idempotencyKey) a

theorem onlyEvaluation_of_find? {id : EvaluationId} {e : EvaluationRow}
    (he : db.evaluations.find? id = some e)
    (hkey : e.creationIdempotencyKey = request.idempotencyKey) : OnlyEvaluation db request e :=
  onlyRow_of_mem (fun _ _ (hapart : EvaluationRow.Apart _ _) ⟨hr, hs⟩ =>
    hapart.creationKey (hr.trans hs.symm)) (Table.mem_of_find? he) hkey

theorem onlyAttempt_of_find? {id : AttemptId} {a : AttemptRow}
    (ha : db.attempts.find? id = some a)
    (hkey : a.attemptIdempotencyKey = request.idempotencyKey) : OnlyAttempt db request a :=
  onlyRow_of_mem (fun _ _ (hapart : AttemptRow.Apart _ _) ⟨hr, hs⟩ =>
    hapart.attemptKey (hr.trans hs.symm)) (Table.mem_of_find? ha) hkey

section Replays

variable [Wire]

/-- The status of an evaluation that is there can be read. -/
theorem exists_status (hl : LosslessRequests) (hr : store.Reachable db) {id : EvaluationId}
    (h : (db.evaluations.find? id).isSome) :
    ∃ snapshot, evaluationStatus db id = .ok snapshot := by
  obtain ⟨e, he⟩ := Option.isSome_iff_exists.mp h
  obtain rfl : e.evaluationId = id := Table.key_of_find? he
  obtain ⟨a, t, htriple⟩ := (coupled_of_reachable hr).linked _ e he
  exact ⟨_, evaluationStatus_ok (legible_of_reachable hl hr) htriple⟩

/-- **A recorded creation is replayed.** -/
theorem createEvaluation_recorded (hl : LosslessRequests) (hr : store.Reachable db)
    (command : CreateEvaluation) (hpayload : encodeEvaluationRequest command.request = .ok payload)
    {e : EvaluationRow} (honly : OnlyEvaluation db command.request e)
    (he : e.initialRequest = payload) :
    ∃ snapshot, evaluationStatus db e.evaluationId = .ok snapshot ∧
      createEvaluation command db = (.ok snapshot, db) := by
  have hfind : db.evaluations.find? e.evaluationId = some e :=
    Table.mem_rows.mp ((honly e).mpr rfl).1
  obtain ⟨snapshot, hstatus⟩ := exists_status hl hr (by rw [hfind]; rfl)
  have hlookup : createLookup command.request.idempotencyKey payload db =
      .ok (some e.evaluationId) := by
    unfold createLookup
    rw [honly.find?]
    simp only [he, ne_eq, not_true_eq_false, refuseIf_neg not_false, ok_bind]
    rfl
  have htransaction : createTransaction command db = .ok (e.evaluationId, db) := by
    simp only [createTransaction, hpayload, reportAs_ok, ok_bind, hlookup]
    rfl
  exact ⟨snapshot, hstatus, by rw [createEvaluation, htransaction, transact_ok, hstatus]⟩

/-- **A recorded retry is replayed.** -/
theorem retryExpired_recorded (hl : LosslessRequests) (hr : store.Reachable db)
    (command : RetryExpired) (hpayload : encodeEvaluationRequest command.request = .ok payload)
    {a : AttemptRow} (honly : OnlyAttempt db command.request a) (ha : a.requestPayload = payload) :
    ∃ snapshot, evaluationStatus db a.evaluationId = .ok snapshot ∧
      retryExpired command db = (.ok snapshot, db) := by
  have hfind : db.attempts.find? a.attemptId = some a := Table.mem_rows.mp ((honly a).mpr rfl).1
  obtain ⟨snapshot, hstatus⟩ := exists_status hl hr ((coupled_of_reachable hr).owned _ a hfind)
  have hlookup : retryLookup command.request.idempotencyKey payload db =
      .ok (some a.evaluationId) := by
    unfold retryLookup
    rw [honly.find?]
    simp only [ha, ne_eq, not_true_eq_false, refuseIf_neg not_false, ok_bind]
    rfl
  have htransaction : retryTransaction command db = .ok (a.evaluationId, db) := by
    simp only [retryTransaction, toI64_unixMillis, orRefuse_some, hpayload, reportAs_ok, ok_bind,
      hlookup]
    rfl
  exact ⟨snapshot, hstatus, by rw [retryExpired, htransaction, transact_ok, hstatus]⟩

/-! ### Races -/

/-- A call was told of an evaluation, as it is. -/
def Told (Tells : Database → EvaluationId → Prop) (db : Database)
    (answer : Except StoreError EvaluationSnapshot) : Prop :=
  ∃ id snapshot, Tells db id ∧ answer = .ok snapshot ∧ evaluationStatus db id = .ok snapshot

variable {ι : Type} [DecidableEq ι]

/-- A race changed the database at most once, and told every call of the same evaluation. -/
structure Settled (Changed : Database → Prop) (Tells : Database → EvaluationId → Prop)
    (db : Database) (moves : List (Move ι Unit Empty))
    (st : State ι Database (Except StoreError EvaluationSnapshot)) : Prop where
  /-- The database is as it was, or was changed once. -/
  shared : st.shared = db ∨ Changed st.shared
  /-- A call that took both of its steps without a fault is told of what is recorded. -/
  told : ∀ i, 2 ≤ steps moves i → ¬Faulted moves i →
    ∃ answer, st.phase i = .answered answer ∧ Told Tells st.shared answer
  /-- Any other answer is the refusal of a call that a fault befell. -/
  answers : ∀ i answer, st.phase i = .answered answer →
    Told Tells st.shared answer ∨ answer = .error .unavailable ∧ Faulted moves i

/-- A race of confirmed calls is settled when each of them alone replays what is recorded, or
records it where nothing could be told before. -/
theorem keyedRace_settled
    {calls : ι → SplitCall Database Unit (Except StoreError EvaluationSnapshot)}
    {Changed : Database → Prop} {Tells : Database → EvaluationId → Prop}
    (hcall : ∀ i s, s = db ∨ Changed s →
      (((calls i).alone () s).2 = s ∨
          (Changed ((calls i).alone () s).2 ∧ ∀ id, ¬Tells s id)) ∧
        Told Tells ((calls i).alone () s).2 ((calls i).alone () s).1)
    {moves : List (Move ι Unit Empty)}
    (h : (keyedRace calls db).Meets (Confirmed calls) (keyedRace calls db).start moves) :
    Settled Changed Tells db moves ((keyedRace calls db).run moves) := by
  have hrule := confirmed_preserves (I := fun s => s = db ∨ Changed s)
    (G := fun i answer s => Told Tells s answer ∨ answer = .error .unavailable ∧ Faulted moves i)
    (fun i _ s hs => ?_) (fun e _ _ => e.elim) (fun _ _ hfault _ => .inr ⟨rfl, hfault⟩) (.inl rfl) h
  · refine ⟨hrule.1, fun i htwo hfault => ?_, hrule.2⟩
    obtain ⟨answer, hanswer⟩ : ∃ answer,
        ((keyedRace calls db).run moves).phase i = .answered answer := exists_answer db htwo
    refine ⟨answer, hanswer, ?_⟩
    rcases hrule.2 i answer hanswer with htold | ⟨-, hfaulted⟩
    · exact htold
    · exact absurd hfaulted hfault
  · obtain ⟨hshared, hanswer⟩ := hcall i s hs
    refine ⟨?_, .inl hanswer⟩
    rcases hshared with heq | ⟨hchanged, hnone⟩
    · change Keeps _ _ s ((calls i).alone () s).2
      rw [heq]
      exact .refl hs
    · refine ⟨.inr hchanged, fun j answer htold => ?_⟩
      rcases htold with ⟨id, _, htells, -⟩ | hrefused
      · exact absurd htells (hnone id)
      · exact .inr hrefused

/-- Creations of one request, each at its own time. -/
def creations (request : EvaluationRequest) (times : ι → UnixMillis) (i : ι) :
    SplitCall Database Unit (Except StoreError EvaluationSnapshot) :=
  createCall ⟨request, times i⟩

/-- Retries with one next request, each at its own time. -/
def retries (request : EvaluationRequest) (times : ι → UnixMillis) (i : ι) :
    SplitCall Database Unit (Except StoreError EvaluationSnapshot) :=
  retryCall ⟨request, times i⟩

omit [DecidableEq ι] in
theorem creations_lookup (hpayload : encodeEvaluationRequest request = .ok payload)
    (hunused : Unused db request) (times : ι → UnixMillis) (i : ι) :
    (creations request times i).lookup db = none := by
  simp only [creations, createCall, keyedCall, hpayload, reportAs_ok, ok_bind,
    createLookup_unused hunused payload]

omit [DecidableEq ι] in
theorem retries_lookup (hpayload : encodeEvaluationRequest request = .ok payload)
    (hnew : ∀ a ∈ db.attempts.rows, a.attemptIdempotencyKey ≠ request.idempotencyKey)
    (times : ι → UnixMillis) (i : ι) : (retries request times i).lookup db = none := by
  simp only [retries, retryCall, keyedCall, toI64_unixMillis, orRefuse_some, hpayload, reportAs_ok,
    ok_bind, retryLookup_new hnew payload]

/-- Creations of one request came to one evaluation at most, and told every call of it. -/
def CreationsSettled (db : Database) (request : EvaluationRequest) (payload : List UInt8)
    (times : ι → UnixMillis) (moves : List (Move ι Unit Empty))
    (st : State ι Database (Except StoreError EvaluationSnapshot)) : Prop :=
  Settled (fun s => store.Reachable s ∧ ∃ i, Created db s request payload (times i).value)
    (fun s id => ∃ e, OnlyEvaluation s request e ∧ e.initialRequest = payload ∧
      e.evaluationId = id) db moves st

/-- Retries with one next request came to one new attempt at most, and told every call of it. -/
def RetriesSettled (db : Database) (request : EvaluationRequest) (payload : List UInt8)
    (times : ι → UnixMillis) (moves : List (Move ι Unit Empty))
    (st : State ι Database (Except StoreError EvaluationSnapshot)) : Prop :=
  Settled (fun s => store.Reachable s ∧
      ∃ i e a t, Superseded db s e a t request payload (times i).value)
    (fun s id => ∃ a, OnlyAttempt s request a ∧ a.requestPayload = payload ∧
      a.evaluationId = id) db moves st

/-- Where creations of a request can start: it is recorded as it is, or new, and its task can be
enqueued. -/
structure Creatable (db : Database) (request : EvaluationRequest) (payload : List UInt8) :
    Prop where
  encodes : encodeEvaluationRequest request = .ok payload
  start : (∃ e, OnlyEvaluation db request e ∧ e.initialRequest = payload) ∨
    (Unused db request ∧ ReferencesAgree db request ∧
      validRequiredCapabilities (request.requiredCapabilities.map (·.value)) = true)

/-- **Creations of one request** come to one evaluation. -/
theorem create_race (hl : LosslessRequests) (hr : store.Reachable db)
    (hstart : Creatable db request payload) (times : ι → UnixMillis)
    {moves : List (Move ι Unit Empty)}
    (h : (keyedRace (creations request times) db).Meets (Confirmed (creations request times))
      (keyedRace (creations request times) db).start moves) :
    CreationsSettled db request payload times moves
      ((keyedRace (creations request times) db).run moves) := by
  refine keyedRace_settled (fun i s hs => ?_) h
  simp only [creations, createCall_alone]
  have hreachable : store.Reachable s := by
    rcases hs with rfl | ⟨hs, -⟩
    · exact hr
    · exact hs
  have hnew {s' : Database} {at' : Int} (hcreated : Created db s' request payload at') :
      OnlyEvaluation s' request (evaluationRow request payload at') :=
    onlyEvaluation_of_find? hcreated.triple.evaluation rfl
  -- the request is recorded, or nothing has happened yet
  have hcases : (∃ e, OnlyEvaluation s request e ∧ e.initialRequest = payload) ∨
      (s = db ∧ Unused db request ∧ ReferencesAgree db request ∧
        validRequiredCapabilities (request.requiredCapabilities.map (·.value)) = true) := by
    rcases hs with rfl | ⟨-, j, hcreated⟩
    · exact hstart.start.imp_right fun h => ⟨rfl, h⟩
    · exact .inl ⟨_, hnew hcreated, rfl⟩
  rcases hcases with ⟨e, honly, he⟩ | ⟨rfl, hunused, hreferences, hcapabilities⟩
  · obtain ⟨snapshot, hstatus, hcreate⟩ := createEvaluation_recorded hl hreachable
      ⟨request, times i⟩ hstart.encodes honly he
    rw [hcreate]
    exact ⟨.inl rfl, _, snapshot, ⟨e, honly, he, rfl⟩, rfl, hstatus⟩
  · obtain ⟨db', hwrite⟩ : ∃ db', createWrite ⟨request, times i⟩ payload s = .ok db' :=
      createWrite_ok (coupled_of_reachable hr) hunused hreferences
        ⟨encode_ne_nil hl hstart.encodes, length_of_encode hstart.encodes⟩ hcapabilities
    have hlookup := createLookup_unused hunused payload
    obtain ⟨hcreated, hcreate⟩ := @createEvaluation_of_write _ _ payload ⟨request, times i⟩ db'
      hl hr hstart.encodes hlookup hwrite
    have hr' : store.Reachable db' := by
      have := hr.next (.createEvaluation ⟨request, times i⟩)
      rwa [next_createEvaluation, hcreate] at this
    have hstatus := evaluationStatus_ok (legible_of_reachable hl hr') hcreated.triple
    rw [hcreate]
    refine ⟨.inr ⟨⟨hr', i, hcreated⟩, ?_⟩, _, _, ⟨_, hnew hcreated, rfl, rfl⟩, rfl, hstatus⟩
    rintro id ⟨e, honly, -⟩
    obtain ⟨hmem, hkey⟩ := (honly e).mpr rfl
    exact hunused.creationKey e hmem hkey

/-- Where retries with one next request can start: it is recorded as it is, or it may replace an
attempt that every call finds expired. -/
structure Retryable (db : Database) (request : EvaluationRequest) (payload : List UInt8)
    (nows : Set UnixMillis) : Prop where
  encodes : encodeEvaluationRequest request = .ok payload
  start : (∃ a, OnlyAttempt db request a ∧ a.requestPayload = payload) ∨
    ∃ e a t current, Triple db e a t ∧ (∀ now ∈ nows, (e, a) ∈ expired now.value db) ∧
      decodeEvaluationRequest a.requestPayload = .ok current ∧
        sameEvaluationSemantics current request = true ∧ Replaceable db e a t request payload

/-- **Retries with one next request** come to one new attempt. -/
theorem retry_race (hl : LosslessRequests) (hr : store.Reachable db) {times : ι → UnixMillis}
    (hstart : Retryable db request payload (Set.range times)) {moves : List (Move ι Unit Empty)}
    (h : (keyedRace (retries request times) db).Meets (Confirmed (retries request times))
      (keyedRace (retries request times) db).start moves) :
    RetriesSettled db request payload times moves
      ((keyedRace (retries request times) db).run moves) := by
  refine keyedRace_settled (fun i s hs => ?_) h
  simp only [retries, retryCall_alone]
  have hreachable : store.Reachable s := by
    rcases hs with rfl | ⟨hs, -⟩
    · exact hr
    · exact hs
  have hnew {s' : Database} {e : EvaluationRow} {a : AttemptRow} {t : TaskRow} {at' : Int}
      (hsuperseded : Superseded db s' e a t request payload at') :
      OnlyAttempt s' request (attemptRow request payload at') :=
    onlyAttempt_of_find? hsuperseded.triple'.attempt rfl
  -- the request is recorded, or nothing has happened yet
  have hcases : (∃ a, OnlyAttempt s request a ∧ a.requestPayload = payload) ∨
      (s = db ∧ ∃ e a t current, Triple db e a t ∧
        (∀ n ∈ Set.range times, (e, a) ∈ expired n.value db) ∧
          decodeEvaluationRequest a.requestPayload = .ok current ∧
            sameEvaluationSemantics current request = true ∧
              Replaceable db e a t request payload) := by
    rcases hs with rfl | ⟨-, j, e, a, t, hsuperseded⟩
    · exact hstart.start.imp_right fun h => ⟨rfl, h⟩
    · exact .inl ⟨_, hnew hsuperseded, rfl⟩
  rcases hcases with ⟨a, honly, ha⟩ | ⟨rfl, e, a, t, current, htriple, hexpired, hdecode, hsame,
    hreplaceable⟩
  · obtain ⟨snapshot, hstatus, hretry⟩ := retryExpired_recorded hl hreachable
      ⟨request, times i⟩ hstart.encodes honly ha
    rw [hretry]
    exact ⟨.inl rfl, _, snapshot, ⟨a, honly, ha, rfl⟩, rfl, hstatus⟩
  · obtain ⟨db', hsuperseded, hretry⟩ := retryExpired_of_replaceable hl hr ⟨request, times i⟩
      htriple (hexpired _ ⟨i, rfl⟩) hdecode hsame hstart.encodes hreplaceable
    have hr' : store.Reachable db' := by
      have := hr.next (.retryExpired ⟨request, times i⟩)
      rwa [next_retryExpired, hretry] at this
    have hstatus := evaluationStatus_ok (legible_of_reachable hl hr') hsuperseded.triple'
    have hid : (attemptRow request payload (times i).value).evaluationId = e.evaluationId :=
      hsuperseded.evaluationId_eq
    rw [hretry]
    refine ⟨.inr ⟨⟨hr', i, e, a, t, hsuperseded⟩, ?_⟩,
      _, _, ⟨_, hnew hsuperseded, rfl, hid⟩, rfl, hstatus⟩
    rintro id ⟨b, honly, -⟩
    obtain ⟨hmem, hkey⟩ := (honly b).mpr rfl
    exact hreplaceable.newKey b hmem hkey

end Replays

/-! ### Late writes -/

/-- What was registered is found. -/
private theorem find?_of_register {ρ : Type} [Relation.{0, 0} ρ] [DecidableEq ρ]
    {table table' : Table ρ} {row : ρ} {references : Prop} [Decidable references]
    (h : register table row references = .ok table') :
    table'.find? (Relation.key row) = some row := by
  unfold register at h
  split at h
  · rename_i stored hfind
    simp only [bind_eq_ok, refuseIf_eq_ok, not_not, exists_const, pure, Except.pure,
      Except.ok.injEq] at h
    obtain ⟨rfl, rfl⟩ := h
    exact hfind
  · simp only [bind_eq_ok, reportAs_eq_ok, refuseIf_eq_ok, exists_const, pure, Except.pure,
      Except.ok.injEq] at h
    obtain ⟨_, hinsert, -, rfl⟩ := h
    rw [(Table.find?_insert hinsert).2, Function.update_self]

/-- A creation that writes leaves its references registered. -/
theorem referencesAgree_of_write {command : CreateEvaluation} {db' : Database}
    (h : createWrite command payload db = .ok db') : ReferencesAgree db' command.request := by
  simp only [createWrite, bind_eq_ok, orRefuse_eq_ok, toI64_unixMillis, Option.some.injEq,
    exists_eq_left', translate_eq_ok, Database.commit_eq_ok] at h
  obtain ⟨db₁, h₁, db₂, h₂, db₃, h₃, db₄, h₄, db₅, h₅, db₆, h₆, db₇, h₇, rfl, -⟩ := h
  simp only [registerArtifact, registerProblemVersion, registerSubmission, registerRuntime,
    toI64_sizeBytes, orRefuse_eq_ok, Option.some.injEq, exists_eq_left', bind_eq_ok, pure,
    Except.pure, Except.ok.injEq] at h₁ h₂ h₃ h₄
  obtain ⟨_, h₁, rfl⟩ := h₁
  obtain ⟨_, h₂, rfl⟩ := h₂
  obtain ⟨_, h₃, rfl⟩ := h₃
  obtain ⟨_, h₄, rfl⟩ := h₄
  obtain ⟨-, -, -, -, hreferences₅⟩ := Database.insertEvaluation_spec h₅
  obtain ⟨-, -, -, -, hreferences₆⟩ := Database.insertAttempt_spec h₆
  obtain ⟨-, -, -, -, hreferences₇⟩ := Database.insertTask_spec h₇
  have hreferences := hreferences₇.trans (hreferences₆.trans hreferences₅)
  refine ⟨fun row hrow => ?_, fun row hrow => ?_, fun row hrow => ?_, fun row hrow => ?_⟩
  all_goals rw [hreferences] at hrow
  · exact Option.some.inj (hrow.symm.trans (find?_of_register h₁))
  · exact Option.some.inj (hrow.symm.trans (find?_of_register h₂))
  · exact Option.some.inj (hrow.symm.trans (find?_of_register h₃))
  · exact Option.some.inj (hrow.symm.trans (find?_of_register h₄))

/-- **A late creation.** What another creation of the request has written since the lookup makes
the write fail on the evaluation's id. -/
theorem createWrite_again {time time' : UnixMillis} {db' : Database}
    (hpayload : 1 ≤ payload.length ∧ payload.length ≤ maxEvaluationRequestBytes)
    (h : createWrite ⟨request, time⟩ payload db = .ok db') :
    createWrite ⟨request, time'⟩ payload db' = .error .identityConflict := by
  have hreferences : ReferencesAgree db' request := referencesAgree_of_write h
  have hcreated := (createWrite_spec h).triple.evaluation
  obtain ⟨db₁, db₂, db₃, db₄, h₁, h₂, h₃, h₄, -⟩ := register_all_ok hreferences
  obtain ⟨hevaluations, -, -⟩ := registered_sameSpine h₁ h₂ h₃ h₄
  have hmem : evaluationRow request payload time.value ∈ db₄.evaluations.rows :=
    hevaluations ▸ Table.mem_of_find? hcreated
  have hinsert : db₄.evaluations.insert (evaluationRow request payload time'.value) =
      .error .unique := by
    refine Table.insert_unique
      (evaluationRow_valid hpayload.1 hpayload.2 (inTimeRange_unixMillis time')) hmem ?_
    rintro ⟨hid, -, -⟩
    exact hid rfl
  have hrefused : db₄.insertEvaluation (evaluationRow request payload time'.value) =
      .error .unique := by
    rw [Database.insertEvaluation, Database.insertRow]
    exact congrArg (· >>= _) hinsert
  simp only [createWrite, h₁, h₂, h₃, h₄, toI64_unixMillis, orRefuse_some, ok_bind, hrefused,
    translate_error, error_bind]
  rfl

/-- **A late retry.** What another retry has written since the lookup leaves nothing leased that
the write could replace. -/
theorem retryWrite_again [Wire] {command : RetryExpired} {db' : Database} {e : EvaluationRow}
    {a : AttemptRow} {t : TaskRow} {payload' : List UInt8} {now now' : Int}
    (h : Superseded db db' e a t command.request payload now) :
    retryWrite command payload' now' db' = .error .invalidTransition := by
  have hcurrent : db'.current? command.request.evaluationId =
      some (e.requeue command.request.attemptId now, attemptRow command.request payload now) :=
    h.evaluationId_eq ▸ h.triple'.current?
  rw [retryWrite, hcurrent, orRefuse_some, ok_bind]
  exact congrArg (· >>= _) (refuseIf_pos (.inl EvaluationState.noConfusion))

/-! ### Overlapping calls -/

section Overlapping

variable [Wire] {ι : Type} [DecidableEq ι] {i j : ι}

/-- Two calls look up before either of them writes. -/
def overlapping (i j : ι) : List (Move ι Unit Empty) :=
  [.call i () .none, .call j () .none, .call i () .none, .call j () .none]

/-- Of two creations that overlap, one is refused. -/
theorem creations_overlapping (hl : LosslessRequests) (hr : store.Reachable db)
    (hpayload : encodeEvaluationRequest request = .ok payload) (hunused : Unused db request)
    (hreferences : ReferencesAgree db request)
    (hcapabilities : validRequiredCapabilities
      (request.requiredCapabilities.map (·.value)) = true)
    (times : ι → UnixMillis) (hij : i ≠ j) :
    ((keyedRace (creations request times) db).run (overlapping i j)).phase j =
      .answered (.error .identityConflict) := by
  have hbounds : 1 ≤ payload.length ∧ payload.length ≤ maxEvaluationRequestBytes :=
    ⟨encode_ne_nil hl hpayload, length_of_encode hpayload⟩
  have hlookup := creations_lookup hpayload hunused times
  obtain ⟨db', hwrite⟩ : ∃ db', createWrite ⟨request, times i⟩ payload db = .ok db' :=
    createWrite_ok (coupled_of_reachable hr) hunused hreferences hbounds hcapabilities
  have hlate : createWrite ⟨request, times j⟩ payload db' = .error .identityConflict :=
    createWrite_again hbounds hwrite
  have hfirst : ((creations request times i).write () db).2 = db' := by
    simp only [creations, createCall, keyedCall, hpayload, reportAs_ok, ok_bind, hwrite]
    rfl
  have hsecond : ((creations request times j).write () db').1 = .error .identityConflict := by
    simp only [creations, createCall, keyedCall, hpayload, reportAs_ok, ok_bind, hlate, error_bind]
    rfl
  rw [keyedRace, overlapping, run_overlapping hij (hlookup i) (hlookup j), hfirst, hsecond]
  exact if_pos rfl

/-- Of two retries that overlap, one is refused. -/
theorem retries_overlapping (hl : LosslessRequests) (hr : store.Reachable db)
    (hpayload : encodeEvaluationRequest request = .ok payload) {e : EvaluationRow} {a : AttemptRow}
    {t : TaskRow} {current : EvaluationRequest} (htriple : Triple db e a t)
    (hdecode : decodeEvaluationRequest a.requestPayload = .ok current)
    (hsame : sameEvaluationSemantics current request = true)
    (hreplaceable : Replaceable db e a t request payload) {times : ι → UnixMillis}
    (hexpired : (e, a) ∈ expired (times i).value db) (hij : i ≠ j) :
    ((keyedRace (retries request times) db).run (overlapping i j)).phase j =
      .answered (.error .invalidTransition) := by
  have hlookup := retries_lookup hpayload hreplaceable.newKey times
  obtain ⟨db', hsuperseded, hretry⟩ := retryExpired_of_replaceable hl hr ⟨request, times i⟩ htriple
    hexpired hdecode hsame hpayload hreplaceable
  have hlate : retryWrite ⟨request, times j⟩ payload (times j).value db' =
      .error .invalidTransition := retryWrite_again hsuperseded
  have hfirst : ((retries request times i).write () db).2 = db' := by
    rw [← SplitCall.alone_of_lookup (hlookup i), retries, retryCall_alone, hretry]
  have hsecond : ((retries request times j).write () db').1 = .error .invalidTransition := by
    simp only [retries, retryCall, keyedCall, toI64_unixMillis, orRefuse_some, hpayload,
      reportAs_ok, ok_bind, hlate, error_bind]
    rfl
  rw [keyedRace, overlapping, run_overlapping hij (hlookup i) (hlookup j), hfirst, hsecond]
  exact if_pos rfl

end Overlapping

/-! ### Any number of calls -/

/-- **Concurrent replay.** Creations of one request, and retries with one next request, settle on
one evaluation and on one new attempt, however their steps are mixed, as long as every write finds
its key still unrecorded. -/
theorem races_settle [Wire] {ι : Type} [DecidableEq ι] (hl : LosslessRequests)
    (hr : store.Reachable db) (times : ι → UnixMillis) (moves : List (Move ι Unit Empty)) :
    (Creatable db request payload →
      (keyedRace (creations request times) db).Meets (Confirmed (creations request times))
        (keyedRace (creations request times) db).start moves →
      CreationsSettled db request payload times moves
        ((keyedRace (creations request times) db).run moves)) ∧
    (Retryable db request payload (Set.range times) →
      (keyedRace (retries request times) db).Meets (Confirmed (retries request times))
        (keyedRace (retries request times) db).start moves →
      RetriesSettled db request payload times moves
        ((keyedRace (retries request times) db).run moves)) :=
  ⟨fun hstart h => create_race hl hr hstart times h, fun hstart h => retry_race hl hr hstart h⟩

section Json

attribute [local instance] jsonWire

/-- The fixture can be created in the empty store. -/
private theorem fixture_creatable :
    ∃ payload, Creatable .empty fixtureRequest payload ∧ Unused .empty fixtureRequest := by
  have hmedia : fixtureRequest.MediaTypeAccepted := fixtureParts_mediaType
  obtain ⟨payload, hpayload⟩ := exists_encode (WireType.json_lossless _) hmedia
  have hcapabilities : validRequiredCapabilities
      (fixtureRequest.requiredCapabilities.map (·.value)) = true := by decide +kernel
  exact ⟨payload, ⟨hpayload, .inr ⟨.empty _, .empty _, hcapabilities⟩⟩, .empty _⟩

/-- The fixture's next request can replace its attempt once that has expired. -/
private theorem fixture_retryable :
    ∃ db payload, store.Reachable db ∧
      Retryable db fixtureNext payload (Set.range fun _ : Bool => fixtureLate) ∧
        ∀ a ∈ db.attempts.rows, a.attemptIdempotencyKey ≠ fixtureNext.idempotencyKey := by
  have hl : LosslessRequests := WireType.json_lossless _
  obtain ⟨first, db, db', hrun, hfirst, hcreated, hclaimed⟩ :=
    exists_claimed_fixture fixtureRequest fixtureParts_mediaType (by decide +kernel)
  have htriple := hclaimed.rewritten.triple'
  obtain ⟨hattempt, hkey⟩ := hclaimed.fixtureNext_unused hcreated
  obtain ⟨payload, hpayload⟩ : ∃ payload, encodeEvaluationRequest fixtureNext = .ok payload :=
    exists_encode hl fixtureParts_mediaType
  have hnext : IsNextRequest fixtureRequest fixtureNext fixtureNext.attemptId
      fixtureNext.idempotencyKey := rfl
  have hdecode := decode_of_encode hl hfirst
  refine ⟨db', payload, ⟨_, hrun⟩, ⟨hpayload, .inr ⟨_, _, _, _, htriple, ?_, hdecode,
    hnext.sameSemantics, hnext.replaceable hl htriple ⟨rfl, rfl, rfl⟩ rfl hpayload hattempt hkey⟩⟩,
    hkey⟩
  rintro _ ⟨_, rfl⟩
  exact mem_expired.mpr ⟨htriple.current?, rfl, rfl, 2000, rfl,
    show (2000 : Int) < 5000 by decide⟩

/-- One call takes both of its steps before another one starts. -/
def inTurn : List (Move Bool Unit Empty) :=
  [.call false () .none, .call false () .none, .call true () .none]

private theorem inTurn_confirmed
    (calls : Bool → SplitCall Database Unit (Except StoreError EvaluationSnapshot)) (db : Database)
    (h : (calls false).lookup db = none) :
    (keyedRace calls db).Meets (Confirmed calls) (keyedRace calls db).start inTurn := by
  have hstart : ∀ j ∈ [false, true], (keyedRace calls db).start.phase j = .waiting :=
    fun _ _ => rfl
  exact confirmed_sequential db (by decide) hstart h () ()

/-- Two creations of the fixture in the empty store, and two retries of its expired attempt, one
after the other. -/
theorem races_settle_fixture :
    (∃ payload, CreationsSettled .empty fixtureRequest payload (fun _ : Bool => fixtureLate) inTurn
      ((keyedRace (creations fixtureRequest fun _ => fixtureLate) .empty).run inTurn)) ∧
    ∃ db payload, store.Reachable db ∧
      RetriesSettled db fixtureNext payload (fun _ : Bool => fixtureLate) inTurn
        ((keyedRace (retries fixtureNext fun _ => fixtureLate) db).run inTurn) := by
  have hl : LosslessRequests := WireType.json_lossless _
  obtain ⟨payload, hcreatable, hunused⟩ := fixture_creatable
  obtain ⟨db, next, hr, hretryable, hnew⟩ := fixture_retryable
  have hcreation := creations_lookup hcreatable.encodes hunused (fun _ : Bool => fixtureLate) false
  have hretry := retries_lookup hretryable.encodes hnew (fun _ : Bool => fixtureLate) false
  have hcreations :=
    inTurn_confirmed (creations fixtureRequest fun _ => fixtureLate) .empty hcreation
  have hretries := inTurn_confirmed (retries fixtureNext fun _ => fixtureLate) db hretry
  exact ⟨⟨payload, (races_settle hl store.reachable_start _ _).1 hcreatable hcreations⟩, db, next,
    hr, (races_settle hl hr _ _).2 hretryable hretries⟩

/-- Two creations of the fixture in the empty store, and two retries of its expired attempt, that
look up before either of them writes: the second one is refused. -/
theorem overlapping_calls_refused :
    ((keyedRace (creations fixtureRequest fun _ : Bool => fixtureLate) .empty).run
      (overlapping false true)).phase true = .answered (.error .identityConflict) ∧
    ∃ db payload, store.Reachable db ∧
      Retryable db fixtureNext payload (Set.range fun _ : Bool => fixtureLate) ∧
        ((keyedRace (retries fixtureNext fun _ : Bool => fixtureLate) db).run
          (overlapping false true)).phase true = .answered (.error .invalidTransition) := by
  have hl : LosslessRequests := WireType.json_lossless _
  obtain ⟨payload, hcreatable, hunused⟩ := fixture_creatable
  obtain ⟨db, next, hr, hretryable, hnew⟩ := fixture_retryable
  have hcapabilities : validRequiredCapabilities
      (fixtureRequest.requiredCapabilities.map (·.value)) = true := by decide +kernel
  have hreferences : ReferencesAgree .empty fixtureRequest := .empty _
  have hstart : store.Reachable .empty := store.reachable_start
  have hcreations := creations_overlapping hl hstart hcreatable.encodes hunused hreferences
    hcapabilities (fun _ : Bool => fixtureLate) Bool.false_ne_true
  refine ⟨hcreations, db, next, hr, hretryable, ?_⟩
  rcases hretryable.start with ⟨a, honly, -⟩ | ⟨e, a, t, current, htriple, hexpired, hdecode, hsame,
    hreplaceable⟩
  · obtain ⟨hmem, hkey⟩ := (honly a).mpr rfl
    exact absurd hkey (hnew a hmem)
  · exact retries_overlapping hl hr hretryable.encodes htriple hdecode hsame hreplaceable
      (hexpired _ ⟨false, rfl⟩) Bool.false_ne_true

end Json
end OpenOJ
