import OpenOJ.Storage.Coupling

/-!
# What a call does

`Performed` lists everything a call can leave behind: the database as it was, or the effect of the
transaction it committed, with the parameters the call gave it; a sweep leaves a sequence of
replaced attempts (`Recovery`). Where it says that a call did nothing, it also says what the call
did not obtain.

Some calls make others: a judge node's claim is a claim, and its submission is a submission, of a
command that the state determines. What is said of claims, submissions and recoveries is said of all
calls that make one, by

* `Operation.claim?`, `Operation.submission?`, `Operation.recoveryTime?`: the command a call amounts
  to in a state, if any;
* `Grants`, `Renews`: the call obtains a lease, or moves the expiry of one, as its caller sees it.

`performed` is the only place that looks into the calls; with it

* `Coupled.effects` and `Coupled.next` carry the coupling invariant over a call;
* `coupled_of_reachable` says that it holds of every reachable database.
-/

namespace OpenOJ

open Outcome Relation

/-! ### Sweeps -/

section Sweeps

variable [Wire]

/-- One attempt was replaced at `now`, by a request for the same evaluation. -/
def Recovery (now : UnixMillis) (db db' : Database) : Prop :=
  ∃ e a t current request payload, decodeEvaluationRequest a.requestPayload = .ok current ∧
    sameEvaluationSemantics current request = true ∧
      encodeEvaluationRequest request = .ok payload ∧
        Superseded db db' e a t request payload now.value

theorem Recovery.coupled {now : UnixMillis} {db db' : Database} (h : Recovery now db db')
    (hc : Coupled db) : Coupled db' := by
  obtain ⟨e, a, t, current, request, payload, -, -, -, h⟩ := h
  exact hc.superseded h

/-- Whatever one replacement preserves of coupled databases, a sweep does. -/
theorem recoveries_preserve {now : UnixMillis} {P : Database → Prop}
    (hstep : ∀ db db', Coupled db → Recovery now db db' → P db → P db') {db db' : Database}
    (h : ReflTransGen (Recovery now) db db') (hc : Coupled db) (hp : P db) :
    Coupled db' ∧ P db' := by
  induction h with
  | refl => exact ⟨hc, hp⟩
  | tail _ hlast ih => exact ⟨hlast.coupled ih.1, hstep _ _ ih.1 hlast ih.2⟩

end Sweeps

/-- A transaction is refused and changes nothing, or commits. -/
theorem transact_cases {α β : Type} (transaction : Except StoreError (α × Database))
    (after : α → Database → Except StoreError β) (db : Database) :
    (∃ e, transaction = .error e ∧ transact transaction after db = (.error e, db)) ∨
      ∃ a db', transaction = .ok (a, db') ∧ transact transaction after db = (after a db', db') := by
  rcases ok_or_error transaction with ⟨⟨a, db'⟩, rfl⟩ | ⟨e, rfl⟩
  · exact .inr ⟨a, db', rfl, rfl⟩
  · exact .inl ⟨e, rfl, rfl⟩

section Calls

variable [Wire] {db db' : Database}

/-- A retry leaves the database as it was or replaces one attempt. -/
theorem retryExpired_performed (hl : Linked db) (command : RetryExpired) :
    (retryExpired command db).2 = db ∨ Recovery command.now db (retryExpired command db).2 := by
  unfold retryExpired
  rcases transact_cases (retryTransaction command db) (fun id db => evaluationStatus db id) db with
    ⟨e, -, heq⟩ | ⟨id, db', hok, heq⟩
  · exact .inl (congrArg Prod.snd heq)
  · rw [heq]
    obtain ⟨payload, hpayload, ⟨hsame, -⟩ | ⟨-, -, e, a, t, current, hdecode, hsame, h⟩⟩ :=
      retryTransaction_spec hl hok
    · exact .inl hsame
    · exact .inr ⟨e, a, t, current, _, payload, hdecode, hsame, hpayload, h⟩

/-- A sweep is a sequence of replacements. -/
theorem recoverLoop_performed {now : UnixMillis} {nowMs : Int} {entropy : Entropy} (fuel : Nat) :
    ∀ (draws recovered : Nat) (db : Database), Coupled db →
      ReflTransGen (Recovery now) db
        (recoverLoop now nowMs entropy fuel draws recovered db).2 := by
  induction fuel with
  | zero => exact fun _ _ _ _ => .refl
  | succ fuel ih =>
    intro draws recovered db hc
    unfold recoverLoop
    split
    · exact .refl
    · split
      · exact .refl
      · rename_i next _
        -- whether this retry replaced the attempt or not, the sweep goes on from what it left
        have hretry : ReflTransGen (Recovery now) db (retryExpired ⟨next, now⟩ db).2 ∧
            Coupled (retryExpired ⟨next, now⟩ db).2 := by
          rcases retryExpired_performed hc.linked ⟨next, now⟩ with heq | h
          · rw [heq]
            exact ⟨.refl, hc⟩
          · exact ⟨.single h, h.coupled hc⟩
        split <;> rename_i heq <;> rw [heq] at hretry
        · exact hretry.1.trans (ih _ _ _ hretry.2)
        · split
          · exact hretry.1.trans (ih _ _ _ hretry.2)
          · exact hretry.1

/-! ### Claims, renewals and submissions among the calls -/

/-- The claim transaction a call runs, with its operation id. A judge node's call runs one
when its operation id is not recorded yet. -/
def Operation.claim? (db : Database) :
    Operation → Option (ClaimTask × Option ClaimOperationId)
  | .claimTask command _ => some (command, none)
  | .claimTaskWithCapabilities command operationId _ _ => some (command, operationId)
  | .judgeClaimTask command _ =>
    match claimReplay command db with
    | .ok none => some (command.claimTask, some command.operationId)
    | _ => none
  | _ => none

/-- The call obtains a lease by a claim of its own, not by the replay of an earlier one. -/
def Grants (db : Database) (op : Operation) (lease : TaskLease) : Prop :=
  (op.claim? db).isSome ∧ store.answer op db = .lease (.ok lease)

/-- The call moves the expiry of an attempt's lease. -/
def Renews (db : Database) (op : Operation) (attemptId : AttemptId) (expiresAt : UnixMillis) :
    Prop :=
  ∃ command, op = .judgeRenewLease command ∧ command.attemptId = attemptId ∧
    store.answer op db = .directive (.ok (.continue expiresAt))

/-- The submission a call makes. A judge node's call makes one when it names the owner of the
current attempt. -/
def Operation.submission? (db : Database) : Operation → Option SubmitResult
  | .submitResult command => some command
  | .judgeSubmitResult command => (judgeSubmitPrepare command db).toOption
  | _ => none

/-- When a call replaces expired attempts, as of what time. -/
def Operation.recoveryTime? : Operation → Option UnixMillis
  | .retryExpired command => some command.now
  | .recoverExpired now _ _ => some now
  | _ => none

/-! ### The specification of a call -/

/-- What a call can leave behind. -/
inductive Performed (db : Database) : Operation → Database → Prop where
  | idle {op} (hclaim : ∀ lease, ¬Grants db op lease) (hrenew : ∀ k x, ¬Renews db op k x) :
      Performed db op db
  | created {command payload db'}
      (hpayload : encodeEvaluationRequest command.request = .ok payload)
      (hnew : ∀ row ∈ db.evaluations.rows,
        row.creationIdempotencyKey ≠ command.request.idempotencyKey)
      (h : Created db db' command.request payload command.createdAt.value) :
      Performed db (.createEvaluation command) db'
  | claimed {op command operationId lease e a t db'}
      (hclaim : op.claim? db = some (command, operationId))
      (hanswer : store.answer op db = .lease (.ok lease)) (hgrant : Granted command a lease)
      (h : Claimed db db' e a t command.nodeId command.leaseToken lease.expiresAt.value
        operationId command.now.value) :
      Performed db op db'
  | renewed {command e a expiresAt db'}
      (hanswer : store.answer (.judgeRenewLease command) db =
        .directive (.ok (.continue expiresAt)))
      (hid : e.evaluationId = command.evaluationId) (hholds : command.Holds a)
      (hexpires : expiresAt.value = command.now.value + command.leasePolicy.leaseDuration.value)
      (h : Renewed db db' e a expiresAt.value command.now.value) :
      Performed db (.judgeRenewLease command) db'
  | recovered {op now db'} (hop : op.recoveryTime? = some now)
      (h : ReflTransGen (Recovery now) db db') : Performed db op db'
  | submitted {op command e a t payload db'} (hop : op.submission? db = some command)
      (hfenced : Fenced command e a)
      (h : Finished db db' e a t command.result.status payload command.idempotencyKey
        command.now.value) :
      Performed db op db'
  | cancelled {command e a t payload db'} (hid : e.evaluationId = command.evaluationId)
      (h : Finished db db' e a t .cancelled payload command.idempotencyKey command.now.value) :
      Performed db (.cancelEvaluation command) db'

private theorem performed_claim (hl : Linked db) {op : Operation} {command : ClaimTask}
    {operationId : Option ClaimOperationId} {capabilities : Option (List String)}
    {locked : AttemptId → Bool} (hclaim : op.claim? db = some (command, operationId))
    (hstep : store.step op db =
      (claimTaskWithCapabilities command operationId capabilities locked db).map .lease id)
    (hrenew : ∀ k x, ¬Renews db op k x) : Performed db op (store.next op db) := by
  unfold Machine.next
  have hanswer : store.answer op db = (store.step op db).1 := rfl
  unfold claimTaskWithCapabilities at hstep
  rcases transact_cases (claimTransaction command operationId capabilities locked db)
    (fun lease _ => .ok lease) db with ⟨e, -, heq⟩ | ⟨lease, db', hok, heq⟩
  · rw [heq] at hstep
    rw [hstep] at hanswer ⊢
    refine .idle (fun lease hgrants => ?_) hrenew
    have := hanswer.symm.trans hgrants.2
    cases this
  · rw [heq] at hstep
    rw [hstep] at hanswer ⊢
    obtain ⟨e, a, t, -, hgranted, h⟩ := claimTransaction_spec hl hok
    exact .claimed hclaim hanswer hgranted h

/-- Only a judge node's renewal renews. -/
private theorem not_renews {op : Operation} (h : ∀ command, op ≠ .judgeRenewLease command)
    (k : AttemptId) (x : UnixMillis) : ¬Renews db op k x := by
  rintro ⟨command, heq, -⟩
  exact h command heq

/-- Only a claim grants. -/
theorem not_grants_of {op : Operation} (h : op.claim? db = none) (lease : TaskLease) :
    ¬Grants db op lease := by
  rintro ⟨hclaim, -⟩
  rw [h] at hclaim
  cases hclaim

/-- A call that neither claims nor renews does what its transaction commits. -/
private theorem performed_transact {α β : Type} {op : Operation}
    {transaction : Except StoreError (α × Database)} {after : α → Database → Except StoreError β}
    (hclaim : op.claim? db = none) (hrenew : ∀ command, op ≠ .judgeRenewLease command)
    (hok : ∀ a db', transaction = .ok (a, db') → db' = db ∨ Performed db op db') :
    Performed db op (transact transaction after db).2 := by
  have hidle : Performed db op db := .idle (not_grants_of hclaim) (not_renews hrenew)
  rcases transact_cases transaction after db with ⟨e, -, heq⟩ | ⟨a, db', htransaction, heq⟩
  · rwa [heq]
  · rw [heq]
    rcases hok a db' htransaction with rfl | h
    · exact hidle
    · exact h

private theorem performed_create (command : CreateEvaluation) :
    Performed db (.createEvaluation command) (createEvaluation command db).2 := by
  refine performed_transact rfl (by simp) fun id db' hok => ?_
  obtain ⟨payload, hpayload, ⟨hsame, -⟩ | ⟨-, hnew, h⟩⟩ := createTransaction_spec hok
  · exact .inl hsame
  · exact .inr (.created hpayload hnew h)

private theorem performed_submit (hl : Linked db) {op : Operation} {command : SubmitResult}
    (hop : op.submission? db = some command) (hclaim : op.claim? db = none)
    (hrenew : ∀ command, op ≠ .judgeRenewLease command) :
    Performed db op (submitResult command db).2 := by
  refine performed_transact hclaim hrenew fun id db' hok => ?_
  obtain ⟨-, payload, -, e, a, -, ⟨hsame, -⟩ | ⟨hfenced, t, h⟩⟩ := submitTransaction_spec hl hok
  · exact .inl hsame
  · exact .inr (.submitted hop hfenced h)

private theorem performed_cancel (hl : Linked db) (command : CancelEvaluation) :
    Performed db (.cancelEvaluation command) (cancelEvaluation command db).2 := by
  refine performed_transact rfl (by simp) fun id db' hok => ?_
  obtain ⟨-, payload, -, e, a, -, ⟨hsame, -⟩ | ⟨hid, -, t, h⟩⟩ := cancelTransaction_spec hl hok
  · exact .inl hsame
  · exact .inr (.cancelled hid h)

/-- A judge node's claim runs a claim transaction unless it is refused or replayed before. -/
private theorem performed_judgeClaim (hl : Linked db) (command : JudgeClaim)
    (locked : AttemptId → Bool) :
    Performed db (.judgeClaimTask command locked)
      (store.next (.judgeClaimTask command locked) db) := by
  have hrenew : ∀ k x, ¬Renews db (.judgeClaimTask command locked) k x := not_renews (by simp)
  rcases hreplay : claimReplay command db with error | lease?
  · have hnext : store.next (.judgeClaimTask command locked) db = db := by
      simp [Machine.next, store, perform, judgeClaimTask, hreplay]
    rw [hnext]
    exact .idle (not_grants_of (by simp [Operation.claim?, hreplay])) hrenew
  · rcases lease? with _ | lease
    · have hclaim : Operation.claim? db (.judgeClaimTask command locked) =
          some (command.claimTask, some command.operationId) := by
        simp only [Operation.claim?, hreplay]
      have hstep : store.step (.judgeClaimTask command locked) db =
          (judgeClaimWrite command locked db).map .lease id := by
        simp only [store, perform, judgeClaimTask, hreplay]
      exact performed_claim hl hclaim hstep hrenew
    · have hnext : store.next (.judgeClaimTask command locked) db = db := by
        simp [Machine.next, store, perform, judgeClaimTask, hreplay]
      rw [hnext]
      exact .idle (not_grants_of (by simp [Operation.claim?, hreplay])) hrenew

private theorem performed_renew (command : JudgeRenew) :
    Performed db (.judgeRenewLease command) (judgeRenewLease command db).2 := by
  have hanswer : store.answer (.judgeRenewLease command) db =
    .directive (judgeRenewLease command db).1 := rfl
  -- only the answer tells whether the lease was renewed
  have hidle (h : ∀ x, (judgeRenewLease command db).1 ≠ .ok (.continue x)) :
      Performed db (.judgeRenewLease command) db := by
    refine .idle (not_grants_of rfl) ?_
    rintro k x ⟨_, ⟨⟩, -, hcontinue⟩
    rw [hanswer] at hcontinue
    exact h x (Answer.directive.inj hcontinue)
  unfold judgeRenewLease at hanswer hidle ⊢
  rcases transact_cases (renewTransaction command db) (fun directive _ => .ok directive) db with
    ⟨e, -, heq⟩ | ⟨directive, db', hok, heq⟩
  · rw [heq] at hidle ⊢
    exact hidle nofun
  · rw [heq] at hanswer hidle ⊢
    rcases renewTransaction_spec hok with
      ⟨rfl, rfl, -⟩ | ⟨e, a, expiresAt, rfl, hid, hholds, hexpires, h⟩
    · exact hidle nofun
    · exact .renewed hanswer hid hholds hexpires h

/-- **What a call does.** -/
theorem performed (hc : Coupled db) (op : Operation) : Performed db op (store.next op db) := by
  have hl := hc.linked
  cases op with
  | createEvaluation command => exact performed_create command
  | evaluationStatus id => exact .idle (not_grants_of rfl) (not_renews (by simp))
  | claimTask command locked => exact performed_claim hl rfl rfl (not_renews (by simp))
  | claimTaskWithCapabilities command operationId capabilities locked =>
    exact performed_claim hl rfl rfl (not_renews (by simp))
  | judgeClaimTask command locked => exact performed_judgeClaim hl command locked
  | judgeRenewLease command => exact performed_renew command
  | retryExpired command =>
    change Performed db _ (retryExpired command db).2
    rcases retryExpired_performed hl command with heq | h
    · rw [heq]
      exact .idle (not_grants_of rfl) (not_renews (by simp))
    · exact .recovered rfl (.single h)
  | recoverExpired now entropy fuel =>
    refine .recovered rfl ?_
    change ReflTransGen _ db (recoverExpired now entropy fuel db).2
    unfold recoverExpired
    rw [toI64_unixMillis]
    exact recoverLoop_performed fuel 0 0 db hc
  | submitResult command => exact performed_submit hl rfl rfl (by simp)
  | judgeSubmitResult command =>
    rcases hprepare : judgeSubmitPrepare command db with error | submission
    · have hnext : store.next (.judgeSubmitResult command) db = db := by
        simp [Machine.next, store, perform, judgeSubmitResult, hprepare]
      rw [hnext]
      exact .idle (not_grants_of rfl) (not_renews (by simp))
    · have hop : Operation.submission? db (.judgeSubmitResult command) = some submission := by
        simp [Operation.submission?, hprepare, Except.toOption]
      have hnext : store.next (.judgeSubmitResult command) db = (submitResult submission db).2 := by
        simp [Machine.next, store, perform, judgeSubmitResult, hprepare]
      rw [hnext]
      exact performed_submit hl hop rfl (by simp)
  | cancelEvaluation command => exact performed_cancel hl command

/-! ### Effects of a call -/

/-- What a call does is a sequence of effects. -/
theorem Performed.effects {op : Operation} (h : Performed db op db') :
    ReflTransGen Effect db db' := by
  cases h with
  | idle => exact .refl
  | created _ _ h => exact .single (.created h)
  | claimed _ _ _ h => exact .single (.claimed h)
  | renewed _ _ _ _ h => exact .single (.renewed h)
  | recovered _ h =>
    refine ReflTransGen.mono ?_ _ _ h
    rintro _ _ ⟨e, a, t, current, request, payload, -, -, -, h⟩
    exact .superseded h
  | submitted _ _ h => exact .single (.finished h)
  | cancelled _ h => exact .single (.finished h)

omit [Wire] in
theorem Coupled.effects (hc : Coupled db) (h : ReflTransGen Effect db db') : Coupled db' := by
  induction h with
  | refl => exact hc
  | tail _ hlast ih => exact ih.effect hlast

theorem Coupled.next (hc : Coupled db) (op : Operation) : Coupled (store.next op db) :=
  hc.effects (performed hc op).effects

/-- **The invariant of the store** holds in every reachable database. -/
theorem coupled_of_reachable (h : store.Reachable db) : Coupled db :=
  h.induction Coupled.empty fun _ op _ hc => hc.next op

end Calls
end OpenOJ
