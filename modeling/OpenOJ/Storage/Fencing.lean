import OpenOJ.Storage.Steps

/-!
# Lease fencing

The `ledger` of a run is what its callers were told: the node and token of the claim that obtained
an attempt's lease, and the expiry set by the claim or a later renewal. It is computed from the
answers alone, beside the rows.

* `ledger_eq_lease?`: the rows never disagree with the ledger; for each attempt, what a run has
  recorded of its lease is what the row of the attempt holds;
* `commits_spec`, `supersedes_spec`: the submission of a result and the replacement of its attempt,
  seen from outside as a change of the evaluation (`Commits`, `Supersedes`), come with an entry of
  the ledger each, and are on different sides of its expiry (`Fenced.entry`, `Supersedes.entry`);
* `owner_runFrom`: an attempt stays with the node and the token of its claim, and is claimed once;
* `ended_runFrom`: an attempt that has ended stays as it is.

`LeaseFenced` is what these come to for a run: no result is stored after the lease that it was
submitted under ran out, no attempt is taken away before, and not both. `lease_fencing` says that
every run is fenced so.
-/

namespace OpenOJ

open Outcome Relation

/-! ### The ledger -/

/-- What is recorded of a lease. -/
structure LeaseRecord where
  nodeId : NodeId
  leaseToken : LeaseToken
  expiresAtMs : Int
  deriving DecidableEq

/-- The lease columns of an attempt, when they are set. -/
def AttemptRow.lease? (a : AttemptRow) : Option LeaseRecord := do
  return ⟨← a.nodeId, ← a.leaseToken, ← a.leaseExpiresAtMs⟩

/-- The lease records of a run, by attempt. -/
abbrev Ledger := AttemptId → Option LeaseRecord

section Ledger

variable [Wire]

/-- What a call's answer adds to the ledger: a claim's own lease is entered, and a renewal that
is told to continue moves the expiry of its attempt's entry. -/
def Ledger.record (db : Database) (op : Operation) (ledger : Ledger) : Ledger :=
  match store.answer op db with
  | .lease (.ok lease) =>
    if (op.claim? db).isSome then
      Function.update ledger lease.request.attemptId
        (some ⟨lease.nodeId, lease.leaseToken, lease.expiresAt.value⟩)
    else ledger
  | .directive (.ok (.continue expiresAt)) =>
    match op with
    | .judgeRenewLease command =>
      Function.update ledger command.attemptId
        ((ledger command.attemptId).map fun entry =>
          { entry with expiresAtMs := expiresAt.value })
    | _ => ledger
  | _ => ledger

/-- The ledger after a run from a database. -/
def ledgerFrom (db : Database) (ledger : Ledger) : List Operation → Ledger
  | [] => ledger
  | op :: ops => ledgerFrom (store.next op db) (ledger.record db op) ops

/-- The ledger of a run from the start. -/
def ledger (ops : List Operation) : Ledger := ledgerFrom store.start (fun _ => none) ops

theorem ledgerFrom_append (db : Database) (l : Ledger) (ops ops' : List Operation) :
    ledgerFrom db l (ops ++ ops') =
      ledgerFrom (store.runFrom db ops) (ledgerFrom db l ops) ops' := by
  induction ops generalizing db l with
  | nil => rfl
  | cons op ops ih => exact ih _ _

theorem ledger_concat (ops : List Operation) (op : Operation) :
    ledger (ops ++ [op]) = (ledger ops).record (store.run ops) op :=
  ledgerFrom_append _ _ _ _

variable {db : Database} {op : Operation}

theorem Ledger.record_of_grants {lease : TaskLease} (h : Grants db op lease) (l : Ledger) :
    l.record db op = Function.update l lease.request.attemptId
      (some ⟨lease.nodeId, lease.leaseToken, lease.expiresAt.value⟩) := by
  unfold Ledger.record
  rw [h.2]
  exact if_pos h.1

theorem Ledger.record_of_renews {k : AttemptId} {x : UnixMillis} (h : Renews db op k x)
    (l : Ledger) :
    l.record db op = Function.update l k
      ((l k).map fun entry => { entry with expiresAtMs := x.value }) := by
  obtain ⟨command, rfl, rfl, hanswer⟩ := h
  unfold Ledger.record
  rw [hanswer]

/-- A call that neither grants nor renews an attempt's lease leaves its entry alone. -/
theorem Ledger.record_other {k : AttemptId} (l : Ledger)
    (hgrant : ∀ lease, Grants db op lease → lease.request.attemptId ≠ k)
    (hrenew : ∀ x, ¬Renews db op k x) : l.record db op k = l k := by
  unfold Ledger.record
  cases hanswer : store.answer op db with
  | snapshot => rfl
  | recovered => rfl
  | lease answer =>
    cases answer with
    | error => rfl
    | ok lease =>
      simp only
      split
      · rename_i hclaim
        exact Function.update_of_ne (hgrant lease ⟨hclaim, hanswer⟩).symm _ _
      · rfl
  | directive answer =>
    cases answer with
    | error => rfl
    | ok directive =>
      cases directive with
      | cancel => rfl
      | «continue» expiresAt =>
        cases op with
        | judgeRenewLease command =>
          refine Function.update_of_ne (fun heq => hrenew expiresAt ?_) _ _
          exact ⟨command, rfl, heq.symm, hanswer⟩
        | _ => rfl

/-- **The rows agree with the ledger**: what a run has recorded of an attempt's lease is what
the attempt's row holds. -/
theorem ledger_eq_lease? (ops : List Operation) (k : AttemptId) :
    ledger ops k = ((store.run ops).attempts.find? k).bind AttemptRow.lease? := by
  induction ops using List.reverseRecOn generalizing k with
  | nil => rfl
  | append_singleton ops op ih =>
    have hc := coupled_of_reachable (store.reachable_run ops)
    rw [ledger_concat, store.run_concat]
    cases ha : (store.run ops).attempts.find? k with
    | some a =>
      have hk : a.attemptId = k := Table.key_of_find? ha
      obtain ⟨a', ha', hstep⟩ := attempt_step hc op ha
      have hold : ledger ops k = a.lease? := by rw [ih k, ha]; rfl
      rw [ha']
      cases hstep with
      | kept hgrant hrenew =>
        rw [hk] at hgrant hrenew
        rw [Ledger.record_other _ hgrant hrenew, hold]
        rfl
      | claimed _ hgrant hid =>
        rw [Ledger.record_of_grants hgrant, hid, hk, Function.update_self]
        rfl
      | renewed _ hrenew hleased =>
        obtain ⟨hnode, htoken, hexpiry⟩ := (hc.tidy k a ha).leased hleased
        obtain ⟨nodeId, hnode⟩ := Option.isSome_iff_exists.mp hnode
        obtain ⟨leaseToken, htoken⟩ := Option.isSome_iff_exists.mp htoken
        obtain ⟨expiry, hexpiry⟩ := Option.isSome_iff_exists.mp hexpiry
        rw [Ledger.record_of_renews hrenew, hk, Function.update_self, hold]
        simp [AttemptRow.lease?, AttemptRow.renew, hnode, htoken, hexpiry]
      | ended _ _ hgrant hrenew =>
        rw [Ledger.record_other _ (fun lease h => absurd h (hgrant lease)) (hrenew k), hold]
        rfl
    | none =>
      -- an attempt that the call adds has no lease, and one that is missing is not granted
      have hold : ledger ops k = none := by rw [ih k, ha]; rfl
      have hunleased : ((store.next op (store.run ops)).attempts.find? k).bind
          AttemptRow.lease? = none := by
        cases ha' : (store.next op (store.run ops)).attempts.find? k with
        | none => rfl
        | some a' =>
          have hqueued := attempt_new hc op ha ha'
          have hnode := (((hc.next op).tidy k a' ha').queued hqueued).1
          simp [AttemptRow.lease?, hnode]
      rw [hunleased, Ledger.record_other _ ?_ ?_, hold]
      · rintro lease hgrants rfl
        obtain ⟨a, ha', -⟩ := hgrants.queued hc
        rw [ha] at ha'
        cases ha'
      · intro x hrenews
        obtain ⟨a, ha', -⟩ := hrenews.leased hc
        rw [ha] at ha'
        cases ha'

/-! ### One claim per attempt -/

/-- An attempt that is no longer queued keeps its node and token, and is never queued again. -/
theorem AttemptStep.owner_eq {a a' : AttemptRow} (h : AttemptStep db op a a')
    (hqueued : a.state ≠ .queued) :
    a'.state ≠ .queued ∧ a'.nodeId = a.nodeId ∧ a'.leaseToken = a.leaseToken := by
  cases h with
  | kept => exact ⟨hqueued, rfl, rfl⟩
  | claimed _ _ _ h => exact absurd h hqueued
  | renewed => exact ⟨hqueued, rfl, rfl⟩
  | ended _ hstate =>
    refine ⟨fun heq => ?_, rfl, rfl⟩
    cases heq
    cases hstate

theorem owner_runFrom (hr : store.Reachable db) {k : AttemptId} {a : AttemptRow}
    (ha : db.attempts.find? k = some a) (hqueued : a.state ≠ .queued) (ops : List Operation) :
    ∃ a', (store.runFrom db ops).attempts.find? k = some a' ∧ a'.state ≠ .queued ∧
      a'.nodeId = a.nodeId ∧ a'.leaseToken = a.leaseToken := by
  refine Machine.run_preserves (P := fun db => ∃ a', db.attempts.find? k = some a' ∧
    a'.state ≠ .queued ∧ a'.nodeId = a.nodeId ∧ a'.leaseToken = a.leaseToken) ?_ hr
      ⟨a, ha, hqueued, rfl, rfl⟩ ops
  rintro db op hr ⟨b, hb, hbqueued, hnode, htoken⟩
  obtain ⟨b', hb', hstep⟩ := attempt_step (coupled_of_reachable hr) op hb
  obtain ⟨hqueued', hnode', htoken'⟩ := hstep.owner_eq hbqueued
  exact ⟨b', hb', hqueued', hnode'.trans hnode, htoken'.trans htoken⟩

/-- The row a granted lease is recorded in. -/
theorem Grants.claimed (hc : Coupled db) {lease : TaskLease} (h : Grants db op lease) :
    ∃ a, (store.next op db).attempts.find? lease.request.attemptId = some a ∧
      a.state = .leased ∧ a.nodeId = some lease.nodeId ∧
        a.leaseToken = some lease.leaseToken := by
  obtain ⟨a, ha, hqueued⟩ := h.queued hc
  have hid : a.attemptId = lease.request.attemptId := Table.key_of_find? ha
  obtain ⟨a', ha', hstep⟩ := attempt_step hc op ha
  cases hstep with
  | kept hgrant => exact absurd hid.symm (hgrant lease h)
  | claimed _ hgrant =>
    obtain rfl := h.unique hgrant
    exact ⟨_, ha', rfl, rfl, rfl⟩
  | renewed _ _ hleased => rw [hqueued] at hleased; cases hleased
  | ended _ _ hgrant => exact absurd h (hgrant lease)

/-! ### Submissions and replacements -/

/-- The stored result of an evaluation. -/
def Database.result? (db : Database) (id : EvaluationId) : Option (List UInt8) :=
  (db.evaluations.find? id).bind EvaluationRow.terminalResult

/-- The call stores the first result of an evaluation. -/
def Commits (db : Database) (op : Operation) (id : EvaluationId) : Prop :=
  db.result? id = none ∧ ((store.next op db).result? id).isSome

/-- The call moves an evaluation on from an attempt. -/
def Supersedes (db : Database) (op : Operation) (id : EvaluationId) (k : AttemptId) : Prop :=
  ∃ e e', db.evaluations.find? id = some e ∧ e.currentAttemptId = k ∧
    (store.next op db).evaluations.find? id = some e' ∧ e'.currentAttemptId ≠ k

/-- A submission that stores a result is fenced by the current lease. -/
theorem commits_spec (hc : Coupled db) {command : SubmitResult}
    (hop : op.submission? db = some command)
    (h : Commits db op command.result.identity.evaluationId) :
    ∃ e a t payload, Fenced command e a ∧
      Finished db (store.next op db) e a t command.result.status payload
        command.idempotencyKey command.now.value := by
  have hperformed := performed hc op
  obtain ⟨hnone, hsome⟩ := h
  generalize store.next op db = db' at hperformed hsome
  cases hperformed with
  | idle => rw [hnone] at hsome; cases hsome
  | created => cases hop
  | claimed hclaim => rw [Operation.not_claim_of_submission hop] at hclaim; cases hclaim
  | renewed => cases hop
  | recovered hrecovery =>
    rw [Operation.not_recovery_of_submission hop] at hrecovery
    cases hrecovery
  | submitted hop' hfenced h =>
    obtain rfl := Option.some.inj (hop.symm.trans hop')
    exact ⟨_, _, _, _, hfenced, h⟩
  | cancelled => cases hop

omit [Wire] in
/-- Rewriting rows in place moves no evaluation on. -/
theorem Rewritten.current_eq {db' : Database} {e e' f f' : EvaluationRow} {a a' : AttemptRow}
    {t t' : TaskRow} (h : Rewritten db db' e e' a a' t t') {id : EvaluationId}
    (hf : db.evaluations.find? id = some f) (hf' : db'.evaluations.find? id = some f') :
    f'.currentAttemptId = f.currentAttemptId := by
  rw [h.evaluations] at hf'
  by_cases hid : id = e.evaluationId
  · rw [hid, Function.update_self] at hf'
    obtain rfl := Option.some.inj hf'
    obtain rfl := Option.some.inj (hf.symm.trans (hid ▸ h.triple.evaluation))
    exact h.currentAttemptId
  · rw [Function.update_of_ne hid, hf] at hf'
    rw [Option.some.inj hf']

/-- An attempt is only moved on from after its lease has expired, and it is left expired. -/
theorem supersedes_spec (hc : Coupled db) {id : EvaluationId} {k : AttemptId}
    (h : Supersedes db op id k) :
    ∃ now a expiry, op.recoveryTime? = some now ∧ db.attempts.find? k = some a ∧
      a.state = .leased ∧ a.leaseExpiresAtMs = some expiry ∧ expiry < now.value ∧
        (store.next op db).attempts.find? k = some (a.move .expired now.value) := by
  have hperformed := performed hc op
  obtain ⟨e, e', he, rfl, he', hne⟩ := h
  generalize store.next op db = db' at hperformed he' ⊢
  cases hperformed with
  | idle => rw [he] at he'; exact absurd (congrArg _ (Option.some.inj he').symm) hne
  | @created command payload _ _ _ h =>
    have hid : id ≠ command.request.evaluationId := by
      rintro rfl
      rw [h.newEvaluation] at he
      cases he
    rw [h.evaluations, Function.update_of_ne hid, he] at he'
    exact absurd (congrArg _ (Option.some.inj he').symm) hne
  | claimed _ _ _ h => exact absurd (h.rewritten.current_eq he he') hne
  | renewed _ _ _ _ h =>
    obtain ⟨t, htriple⟩ := h.triple hc.linked
    exact absurd ((h.rewritten htriple).current_eq he he') hne
  | @recovered _ now _ hop h =>
    obtain ⟨a, t, hcoupled⟩ := hc.evaluations id e he
    rcases recoveries_attempt hc h hcoupled.triple.attempt with
      ⟨-, hsame⟩ | ⟨hleased, ⟨expiry, hexpiry, hlt⟩, hmoved⟩
    · have := hsame id e he rfl
      rw [he'] at this
      exact absurd (congrArg _ (Option.some.inj this)) hne
    · exact ⟨now, a, expiry, hop, hcoupled.triple.attempt, hleased, hexpiry, hlt, hmoved⟩
  | submitted _ _ h => exact absurd (h.rewritten.current_eq he he') hne
  | cancelled _ h => exact absurd (h.rewritten.current_eq he he') hne

/-- An attempt that has ended is not changed by a run. -/
theorem ended_runFrom (hr : store.Reachable db) {k : AttemptId} {a : AttemptRow}
    (ha : db.attempts.find? k = some a) (hended : a.state.isOpen = false)
    (ops : List Operation) : (store.runFrom db ops).attempts.find? k = some a := by
  refine Machine.run_preserves (P := fun db => db.attempts.find? k = some a) ?_ hr ha ops
  intro db op hr ha
  obtain ⟨a', ha', hstep⟩ := attempt_step (coupled_of_reachable hr) op ha
  rw [ha', hstep.ended_eq hended]

/-- A fenced submission, in terms of the ledger. -/
theorem Fenced.entry (ops : List Operation) {command : SubmitResult} {e : EvaluationRow}
    {a : AttemptRow} {t : TaskRow} (h : Fenced command e a)
    (htriple : Triple (store.run ops) e a t) :
    ∃ entry, ledger ops e.currentAttemptId = some entry ∧
      entry.leaseToken = command.leaseToken ∧ (command.now.value : Int) ≤ entry.expiresAtMs := by
  have htidy := (coupled_of_reachable (store.reachable_run ops)).tidy _ a htriple.attempt
  obtain ⟨nodeId, hnode⟩ := Option.isSome_iff_exists.mp (htidy.leased h.attemptLeased).1
  obtain ⟨expiry, hexpiry, hlive⟩ := h.live
  refine ⟨⟨nodeId, command.leaseToken, expiry⟩, ?_, rfl, hlive⟩
  rw [ledger_eq_lease?, htriple.attempt]
  simp [AttemptRow.lease?, hnode, h.leaseToken, hexpiry]

/-- A replaced attempt, in terms of the ledger. -/
theorem Supersedes.entry (ops : List Operation) {id : EvaluationId} {k : AttemptId}
    (h : Supersedes (store.run ops) op id k) :
    ∃ now entry, op.recoveryTime? = some now ∧ ledger ops k = some entry ∧
      entry.expiresAtMs < now.value := by
  have hc := coupled_of_reachable (store.reachable_run ops)
  obtain ⟨now, a, expiry, hop, ha, hleased, hexpiry, hlt, -⟩ := supersedes_spec hc h
  obtain ⟨hnode, htoken, -⟩ := (hc.tidy k a ha).leased hleased
  obtain ⟨nodeId, hnode⟩ := Option.isSome_iff_exists.mp hnode
  obtain ⟨leaseToken, htoken⟩ := Option.isSome_iff_exists.mp htoken
  refine ⟨now, ⟨nodeId, leaseToken, expiry⟩, hop, ?_, hlt⟩
  rw [ledger_eq_lease?, ha]
  simp [AttemptRow.lease?, hnode, htoken, hexpiry]

/-- What fencing says of a run, for every call that could come next. -/
structure LeaseFenced (ops : List Operation) : Prop where
  /-- The ledger is what the rows record. -/
  recorded : ∀ k, ledger ops k = ((store.run ops).attempts.find? k).bind AttemptRow.lease?
  /-- A result is stored for the holder of the current attempt's lease, no later than its
  expiry, and no call has moved the evaluation on from that attempt. -/
  submitted : ∀ op command, op.submission? (store.run ops) = some command →
    Commits (store.run ops) op command.result.identity.evaluationId →
      ∃ e entry,
        (store.run ops).evaluations.find? command.result.identity.evaluationId = some e ∧
          e.currentAttemptId = command.result.identity.attemptId ∧
            ledger ops e.currentAttemptId = some entry ∧
              entry.leaseToken = command.leaseToken ∧
                (command.now.value : Int) ≤ entry.expiresAtMs ∧
                  ∀ before op' after, ops = before ++ op' :: after →
                    ¬Supersedes (store.run before) op' e.evaluationId e.currentAttemptId
  /-- An attempt is moved on from by a recovery strictly later than its expiry. -/
  superseded : ∀ op id k, Supersedes (store.run ops) op id k →
    ∃ now entry, op.recoveryTime? = some now ∧ ledger ops k = some entry ∧
      entry.expiresAtMs < now.value
  /-- Of a submission and a recovery that could both come next, the recovery is later. -/
  exclusive : ∀ op command op' now, op.submission? (store.run ops) = some command →
    Commits (store.run ops) op command.result.identity.evaluationId →
      Supersedes (store.run ops) op' command.result.identity.evaluationId
          command.result.identity.attemptId →
        op'.recoveryTime? = some now → command.now.value < now.value
  /-- Once a result is stored for an attempt, no call moves on from it. -/
  final : ∀ op command after op', op.submission? (store.run ops) = some command →
    Commits (store.run ops) op command.result.identity.evaluationId →
      ¬Supersedes (store.run (ops ++ op :: after)) op' command.result.identity.evaluationId
        command.result.identity.attemptId
  /-- An attempt is claimed once. -/
  once : ∀ op lease after op' lease', Grants (store.run ops) op lease →
    Grants (store.run (ops ++ op :: after)) op' lease' →
      lease'.request.attemptId ≠ lease.request.attemptId
  /-- An attempt stays with the node and the token of its claim. -/
  owned : ∀ op lease after, Grants (store.run ops) op lease →
    ∃ entry, ledger (ops ++ op :: after) lease.request.attemptId = some entry ∧
      entry.nodeId = lease.nodeId ∧ entry.leaseToken = lease.leaseToken

/-- An attempt that was moved on from stays expired. -/
private theorem expired_of_supersedes {before : List Operation} {id : EvaluationId}
    {k : AttemptId} (h : Supersedes (store.run before) op id k) (after : List Operation) :
    ∃ a, (store.run (before ++ op :: after)).attempts.find? k = some a ∧
      a.state = .expired := by
  have hr := store.reachable_run before
  obtain ⟨now, a, expiry, -, -, -, -, -, hmoved⟩ := supersedes_spec (coupled_of_reachable hr) h
  refine ⟨a.move .expired now.value, ?_, rfl⟩
  rw [store.run_append, Machine.runFrom_cons]
  exact ended_runFrom (hr.next op) hmoved rfl after

/-- A granted lease stays on its attempt's row. -/
private theorem granted_runFrom {ops : List Operation} {lease : TaskLease}
    (h : Grants (store.run ops) op lease) (after : List Operation) :
    ∃ a, (store.run (ops ++ op :: after)).attempts.find? lease.request.attemptId = some a ∧
      a.state ≠ .queued ∧ a.nodeId = some lease.nodeId ∧
        a.leaseToken = some lease.leaseToken := by
  have hr := store.reachable_run ops
  obtain ⟨a, ha, hleased, hnode, htoken⟩ := h.claimed (coupled_of_reachable hr)
  obtain ⟨a', ha', hqueued, hnode', htoken'⟩ :=
    owner_runFrom (hr.next op) ha (by rw [hleased]; simp) after
  refine ⟨a', ?_, hqueued, hnode'.trans hnode, htoken'.trans htoken⟩
  rw [store.run_append, Machine.runFrom_cons]
  exact ha'

/-- **Lease fencing** of every run. -/
theorem lease_fencing (ops : List Operation) : LeaseFenced ops := by
  have hr := store.reachable_run ops
  have hc := coupled_of_reachable hr
  refine ⟨ledger_eq_lease? ops, ?submitted, ?superseded, ?exclusive, ?final, ?once, ?owned⟩
  case submitted =>
    intro op command hop hcommits
    obtain ⟨e, a, t, payload, hfenced, h⟩ := commits_spec hc hop hcommits
    obtain ⟨entry, hentry, htoken, hlive⟩ := hfenced.entry ops h.triple
    refine ⟨e, entry, hfenced.evaluationId ▸ h.triple.evaluation, hfenced.attemptId, hentry,
      htoken, hlive, ?_⟩
    -- an attempt that was moved on from would be expired, and not leased
    rintro before op' after rfl hsupersedes
    obtain ⟨b, hb, hexpired⟩ := expired_of_supersedes hsupersedes after
    obtain rfl := Option.some.inj (hb.symm.trans h.triple.attempt)
    rw [hfenced.attemptLeased] at hexpired
    cases hexpired
  case superseded => exact fun op id k h => h.entry ops
  case exclusive =>
    intro op command op' now hop hcommits hsupersedes hop'
    obtain ⟨e, a, t, payload, hfenced, h⟩ := commits_spec hc hop hcommits
    -- both are held against one expiry
    obtain ⟨entry, hentry, -, hlive⟩ := hfenced.entry ops h.triple
    obtain ⟨now', entry', hnow', hentry', hlt⟩ := hsupersedes.entry ops
    obtain rfl := Option.some.inj (hop'.symm.trans hnow')
    rw [← hfenced.attemptId, hentry] at hentry'
    obtain rfl := Option.some.inj hentry'
    omega
  case final =>
    intro op command after op' hop hcommits hsupersedes
    obtain ⟨e, a, t, payload, hfenced, h⟩ := commits_spec hc hop hcommits
    have hended : (a.move command.result.status.attemptState command.now.value).state.isOpen =
        false := by
      change command.result.status.attemptState.isOpen = false
      cases command.result.status <;> rfl
    -- the attempt has ended, and only a leased one is moved on from
    have hrow := ended_runFrom (hr.next op) h.rewritten.triple'.attempt hended after
    obtain ⟨now, b, expiry, -, hb, hleased, -⟩ :=
      supersedes_spec (coupled_of_reachable (store.reachable_run _)) hsupersedes
    rw [store.run_append, Machine.runFrom_cons, ← hfenced.attemptId] at hb
    obtain rfl := Option.some.inj (hrow.symm.trans hb)
    rw [hleased] at hended
    cases hended
  case once =>
    intro op lease after op' lease' hgrants hgrants' heq
    obtain ⟨a, ha, hqueued, -⟩ := granted_runFrom hgrants after
    obtain ⟨b, hb, hbqueued⟩ := hgrants'.queued (coupled_of_reachable (store.reachable_run _))
    rw [heq, ha] at hb
    exact hqueued (Option.some.inj hb ▸ hbqueued)
  case owned =>
    intro op lease after hgrants
    obtain ⟨a, ha, -, hnode, htoken⟩ := granted_runFrom hgrants after
    have hexpiry : a.leaseExpiresAtMs.isSome := by
      have hvalid : a.Valid := Table.check_of_find? ha
      have := hvalid.leaseExpiry
      rw [htoken] at this
      cases h : a.leaseExpiresAtMs <;> simp_all
    obtain ⟨expiry, hexpiry⟩ := Option.isSome_iff_exists.mp hexpiry
    refine ⟨⟨lease.nodeId, lease.leaseToken, expiry⟩, ?_, rfl, rfl⟩
    rw [ledger_eq_lease?, ha]
    simp [AttemptRow.lease?, hnode, htoken, hexpiry]

end Ledger
end OpenOJ
