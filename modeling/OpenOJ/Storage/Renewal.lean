import OpenOJ.Storage.Fencing
import OpenOJ.Storage.Creation

/-!
# Renewals and expiry

A renewal compares the node, the attempt and the token of its command with those of the current
lease, and nothing else: it does not look at the expiry.

* `judgeRenewLease_holder`: the holder's renewal is granted, whatever the expiry of its lease, so a
  lease that had run out is there again;
* `judgeRenewLease_stale`: while the evaluation is leased, anybody else is refused, and changes
  nothing;
* `judgeRenewLease_expired_iff`: so a renewal of a lease that has expired is refused as stale
  exactly when its caller is not the holder, while under one policy and a clock that does not go
  back (`UnderPolicy`) no renewal shortens a lease;
* `UnderPolicy.expiry_le`: in such a run every expiry is within a lease's duration of the clock, and
  `UnderPolicy.renewal_le` compares a renewal with it.

Two renewals of the fixture's lease after its end are the examples: one by its holder
(`judgeRenewLease_revives`) and one by another node (`judgeRenewLease_other_node`).
-/

namespace OpenOJ

open Outcome Relation

variable {db : Database}

/-! ### The answer to a renewal -/

section Answer

variable {command : JudgeRenew} {e : EvaluationRow} {a : AttemptRow} {expiresAt : UnixMillis}

/-- A renewal of a leased evaluation, once its owner and token are read. -/
private theorem renewTransaction_leased (hc : Coupled db)
    (hexpires : command.now.checkedAdd command.leasePolicy.leaseDuration = .ok expiresAt)
    (hcurrent : db.current? command.evaluationId = some (e, a)) (hleased : e.state = .leased) :
    ∃ nodeId leaseToken, a.nodeId = some nodeId ∧ a.leaseToken = some leaseToken ∧
      renewTransaction command db = (do
        refuseIf (e.currentAttemptId ≠ command.attemptId ∨ nodeId ≠ command.nodeId ∨
          leaseToken ≠ command.leaseToken) .staleLease
        let db ← reportAs .unavailable (db.updateAttempt command.attemptId fun a =>
          a.renew expiresAt.value command.now.value)
        return (.continue expiresAt, db)) := by
  obtain ⟨-, t, hcoupled⟩ := hc.current hcurrent
  have hleased' := hcoupled.attempt_leased hleased
  obtain ⟨hnode, htoken, -⟩ := hcoupled.leased a hcoupled.triple.attemptOf hleased'
  obtain ⟨nodeId, hnode⟩ := Option.isSome_iff_exists.mp hnode
  obtain ⟨leaseToken, htoken⟩ := Option.isSome_iff_exists.mp htoken
  refine ⟨nodeId, leaseToken, hnode, htoken, ?_⟩
  simp only [renewTransaction, hexpires, reportAs_ok, ok_bind, toI64_unixMillis, orRefuse_some,
    hcurrent, hleased, hleased', reduceCtorEq, or_self, if_false, hnode, htoken, ne_eq,
    not_true_eq_false, false_or]

/-- A renewal of a leased evaluation by anyone but the holder is stale. -/
theorem judgeRenewLease_stale (hc : Coupled db)
    (hexpires : command.now.checkedAdd command.leasePolicy.leaseDuration = .ok expiresAt)
    (hcurrent : db.current? command.evaluationId = some (e, a)) (hleased : e.state = .leased)
    (hholds : ¬command.Holds a) : judgeRenewLease command db = (.error .staleLease, db) := by
  obtain ⟨nodeId, leaseToken, hnode, htoken, heq⟩ :=
    renewTransaction_leased hc hexpires hcurrent hleased
  obtain ⟨-, t, hcoupled⟩ := hc.current hcurrent
  have hother : e.currentAttemptId ≠ command.attemptId ∨ nodeId ≠ command.nodeId ∨
      leaseToken ≠ command.leaseToken := by
    by_contra h
    simp only [not_or, not_not] at h
    obtain ⟨hattempt, rfl, rfl⟩ := h
    exact hholds ⟨hcoupled.triple.attemptId.trans hattempt, hnode, htoken⟩
  rw [judgeRenewLease, heq, refuseIf_pos hother, error_bind, transact_error]

/-- **Revival.** The holder's renewal is granted, whatever the expiry of its lease. -/
theorem judgeRenewLease_holder (hc : Coupled db)
    (hexpires : command.now.checkedAdd command.leasePolicy.leaseDuration = .ok expiresAt)
    (hcurrent : db.current? command.evaluationId = some (e, a)) (hleased : e.state = .leased)
    (hholds : command.Holds a) (hle : a.createdAtMs ≤ command.now.value) :
    (judgeRenewLease command db).1 = .ok (.continue expiresAt) := by
  obtain ⟨nodeId, leaseToken, hnode, htoken, heq⟩ :=
    renewTransaction_leased hc hexpires hcurrent hleased
  obtain ⟨-, t, hcoupled⟩ := hc.current hcurrent
  obtain ⟨hattempt, hnode', htoken'⟩ := hholds
  have hsame : ¬(e.currentAttemptId ≠ command.attemptId ∨ nodeId ≠ command.nodeId ∨
      leaseToken ≠ command.leaseToken) := by
    rw [hnode] at hnode'
    rw [htoken] at htoken'
    simp [← hcoupled.triple.attemptId, hattempt, Option.some.inj hnode', Option.some.inj htoken']
  have hfind : db.attempts.find? command.attemptId = some a :=
    hattempt ▸ hcoupled.triple.attemptId ▸ hcoupled.triple.attempt
  have hvalid : a.Valid := Table.check_of_find? hfind
  obtain ⟨db', hupdate⟩ : ∃ db', db.updateAttempt command.attemptId (fun a =>
      a.renew expiresAt.value command.now.value) = .ok db' :=
    Database.exists_updateRow (ρ := AttemptRow) hfind
      (hvalid.renew (by rw [htoken]; rfl) (inTimeRange_unixMillis expiresAt) hle
        (inTimeRange_unixMillis command.now).2)
      fun s _ hs => ⟨hs.attemptId, hs.attemptKey, hs.number, hs.claimOperation⟩
  rw [judgeRenewLease, heq, refuseIf_neg hsame, ok_bind, hupdate]
  rfl

end Answer

/-- The attempt of an expired lease is older than the time it expired by. -/
theorem Coupled.created_le_of_expired (hc : Coupled db) (ht : Timed db) {id : EvaluationId}
    {e : EvaluationRow} {a : AttemptRow} {expiry now : Int}
    (hcurrent : db.current? id = some (e, a)) (hleased : e.state = .leased)
    (hexpiry : a.leaseExpiresAtMs = some expiry) (hlt : expiry < now) : a.createdAtMs ≤ now := by
  obtain ⟨-, t, hcoupled⟩ := hc.current hcurrent
  obtain ⟨-, hcreated, -⟩ :=
    ht.created_lt hcoupled.triple (hcoupled.attempt_leased hleased) hexpiry hlt
  exact Int.le_of_lt hcreated

/-! ### One policy, one clock -/

/-- The clock reading a call brings. -/
def Operation.clock? : Operation → Option Nat
  | .createEvaluation command => some command.createdAt.value
  | .evaluationStatus _ => none
  | .claimTask command _ => some command.now.value
  | .claimTaskWithCapabilities command _ _ _ => some command.now.value
  | .judgeClaimTask command _ => some command.now.value
  | .judgeRenewLease command => some command.now.value
  | .retryExpired command => some command.now.value
  | .recoverExpired now _ _ => some now.value
  | .submitResult command => some command.now.value
  | .judgeSubmitResult command => some command.now.value
  | .cancelEvaluation command => some command.now.value

/-- The lease duration a call brings. -/
def Operation.leaseDuration? : Operation → Option LeaseDuration
  | .claimTask command _ => some command.leaseDuration
  | .claimTaskWithCapabilities command _ _ _ => some command.leaseDuration
  | .judgeClaimTask command _ => some command.leasePolicy.leaseDuration
  | .judgeRenewLease command => some command.leasePolicy.leaseDuration
  | _ => none

/-- A run under one lease policy, whose clock readings never decrease. -/
structure UnderPolicy (policy : LeasePolicy) (ops : List Operation) : Prop where
  duration : ∀ op ∈ ops, ∀ d ∈ op.leaseDuration?, d = policy.leaseDuration
  clock : (ops.filterMap Operation.clock?).Pairwise (· ≤ ·)

section Policy

variable [Wire]

/-- A claim uses the clock reading and the duration of its call. -/
theorem Operation.clock_of_claim {op : Operation} {command : ClaimTask}
    {operationId : Option ClaimOperationId} (h : op.claim? db = some (command, operationId)) :
    op.clock? = some command.now.value ∧ op.leaseDuration? = some command.leaseDuration := by
  cases op with
  | claimTask c locked =>
    cases h
    exact ⟨rfl, rfl⟩
  | claimTaskWithCapabilities c o capabilities locked =>
    cases h
    exact ⟨rfl, rfl⟩
  | judgeClaimTask c locked =>
    simp only [Operation.claim?] at h
    split at h
    · cases h
      exact ⟨rfl, rfl⟩
    · cases h
  | _ => cases h

/-- Under one policy, no stored expiry is later than the policy's duration after the latest
clock reading. -/
theorem UnderPolicy.expiry_le {policy : LeasePolicy} {bound : Nat} (ops : List Operation)
    (hduration : ∀ op ∈ ops, ∀ d ∈ op.leaseDuration?, d = policy.leaseDuration)
    (hbound : ∀ op ∈ ops, ∀ time ∈ op.clock?, time ≤ bound) :
    ∀ {k a expiry}, (store.run ops).attempts.find? k = some a → a.leaseExpiresAtMs = some expiry →
      expiry ≤ bound + policy.leaseDuration.value := by
  induction ops using List.reverseRecOn with
  | nil => intro k a expiry ha; cases ha
  | append_singleton ops op ih =>
    intro k a' expiry ha' hexpiry
    have hc := coupled_of_reachable (store.reachable_run ops)
    have hop : op ∈ ops ++ [op] := by simp
    have hold := @ih (fun op h => hduration op (by simp [h])) (fun op h => hbound op (by simp [h]))
    rw [store.run_concat] at ha'
    cases ha : (store.run ops).attempts.find? k with
    | none =>
      -- a new attempt is not leased yet
      have hqueued := attempt_new hc op ha ha'
      rw [(((hc.next op).tidy k a' ha').queued hqueued).2.2.1] at hexpiry
      cases hexpiry
    | some a =>
      obtain ⟨a'', ha'', hstep⟩ := attempt_step hc op ha
      obtain rfl := Option.some.inj (ha''.symm.trans ha')
      cases hstep with
      | kept => exact hold ha hexpiry
      | @claimed command operationId lease hclaim _ _ _ hexpires =>
        obtain ⟨hclock, hdur⟩ := Operation.clock_of_claim hclaim
        have hle := hbound op hop _ hclock
        have heq := congrArg LeaseDuration.value (hduration op hop _ hdur)
        obtain rfl := Option.some.inj hexpiry
        omega
      | @renewed command x hrenewal _ _ hexpires =>
        subst hrenewal
        have hle := hbound _ hop _ rfl
        have heq := congrArg LeaseDuration.value (hduration _ hop _ rfl)
        obtain rfl := Option.some.inj hexpiry
        omega
      | ended => exact hold ha hexpiry

/-- A renewal under the policy of a run returns an expiry no earlier than the stored one. -/
theorem UnderPolicy.renewal_le {policy : LeasePolicy} {ops : List Operation} {op : Operation}
    (h : UnderPolicy policy (ops ++ [op])) {k : AttemptId} {x : UnixMillis} {a : AttemptRow}
    {expiry : Int} (hrenews : Renews (store.run ops) op k x)
    (ha : (store.run ops).attempts.find? k = some a) (hexpiry : a.leaseExpiresAtMs = some expiry) :
    expiry ≤ x.value := by
  have hc := coupled_of_reachable (store.reachable_run ops)
  obtain rfl : a.attemptId = k := Table.key_of_find? ha
  obtain ⟨a', -, hstep⟩ := attempt_step hc op ha
  -- the call is the last reading of the clock
  have hclock := h.clock
  rw [List.filterMap_append, List.pairwise_append] at hclock
  cases hstep with
  | kept _ hrenew => exact absurd hrenews (hrenew x)
  | claimed hclaim => exact absurd hrenews (not_renews_of (.inl (by rw [hclaim]; rfl)))
  | @renewed command x' hop hrenews' _ hexpires =>
    obtain ⟨_, hop', -, hanswer⟩ := hrenews
    obtain ⟨_, -, -, hanswer'⟩ := hrenews'
    obtain rfl : x' = x := by simpa using hanswer'.symm.trans hanswer
    subst hop
    have hbound : ∀ op' ∈ ops, ∀ time ∈ op'.clock?, time ≤ command.now.value := by
      intro op' hop' time htime
      exact hclock.2.2 time (List.mem_filterMap.mpr ⟨op', hop', htime⟩) _ (by
        simp [Operation.clock?])
    have hle := UnderPolicy.expiry_le ops (fun op' hop' => h.duration op' (by simp [hop'])) hbound
      ha hexpiry
    have hdur := congrArg LeaseDuration.value
      (h.duration (.judgeRenewLease command) (by simp) _ rfl)
    omega
  | ended _ _ _ hrenew => exact absurd hrenews (hrenew _ _)

/-! ### Renewals of expired leases -/

/-- **An expired lease is revived by its holder, and by nobody else.** A renewal of a lease that
has expired is refused as stale, changing nothing, exactly when its command does not name the
lease's node, attempt and token. Under one policy and a clock that does not go back, a renewal
never brings an expiry forward. -/
theorem judgeRenewLease_expired_iff :
    (∀ {db : Database} {command : JudgeRenew} {e a expiresAt expiry}, store.Reachable db →
      command.now.checkedAdd command.leasePolicy.leaseDuration = .ok expiresAt →
        db.current? command.evaluationId = some (e, a) → e.state = .leased →
          a.leaseExpiresAtMs = some expiry → expiry < command.now.value →
            (judgeRenewLease command db = (.error .staleLease, db) ↔ ¬command.Holds a)) ∧
      ∀ {policy : LeasePolicy} {ops : List Operation} {op k x a expiry},
        UnderPolicy policy (ops ++ [op]) → Renews (store.run ops) op k x →
          (store.run ops).attempts.find? k = some a → a.leaseExpiresAtMs = some expiry →
            expiry ≤ x.value := by
  refine ⟨?_, fun h hrenews ha hexpiry => h.renewal_le hrenews ha hexpiry⟩
  intro db command e a expiresAt expiry hr hexpires hcurrent hleased hexpiry hlt
  have hc := coupled_of_reachable hr
  refine ⟨fun hstale hholds => ?_, judgeRenewLease_stale hc hexpires hcurrent hleased⟩
  have hle := hc.created_le_of_expired (timed_of_reachable hr) hcurrent hleased hexpiry hlt
  have hcontinue := judgeRenewLease_holder hc hexpires hcurrent hleased hholds hle
  rw [hstale] at hcontinue
  cases hcontinue

end Policy

section Json

attribute [local instance] jsonWire

/-- A renewal of the fixture's lease, three seconds after it expired. -/
def fixtureRenewal (nodeId : NodeId) : JudgeRenew where
  nodeId := nodeId
  evaluationId := fixtureRequest.evaluationId
  attemptId := fixtureRequest.attemptId
  leaseToken := fixtureClaim.leaseToken
  now := fixtureLate
  leasePolicy := fixtureLeasePolicy

/-- The claimed fixture at the time of the renewal. -/
private theorem fixture_expired :
    ∃ db e a, store.Reachable db ∧
      db.current? fixtureRequest.evaluationId = some (e, a) ∧ e.state = .leased ∧
        a.leaseExpiresAtMs = some 2000 ∧ (fixtureRenewal fixtureClaim.nodeId).Holds a := by
  obtain ⟨payload, db, db', hrun, -, -, hclaimed⟩ :=
    exists_claimed_fixture fixtureRequest fixtureParts_mediaType (by decide +kernel)
  exact ⟨db', _, _, ⟨_, hrun⟩, hclaimed.rewritten.triple'.current?, rfl, rfl, rfl, rfl, rfl⟩

/-- The holder of an expired lease renews it. -/
theorem judgeRenewLease_revives :
    ∃ db e a expiresAt, store.Reachable db ∧
      db.current? fixtureRequest.evaluationId = some (e, a) ∧ e.state = .leased ∧
        a.leaseExpiresAtMs = some 2000 ∧
          (judgeRenewLease (fixtureRenewal fixtureClaim.nodeId) db).1 =
            .ok (.continue expiresAt) := by
  obtain ⟨db, e, a, hr, hcurrent, hleased, hexpiry, hholds⟩ := fixture_expired
  have hc := coupled_of_reachable hr
  refine ⟨db, e, a, ⟨6000, by decide⟩, hr, hcurrent, hleased, hexpiry,
    judgeRenewLease_holder hc rfl hcurrent hleased hholds ?_⟩
  exact hc.created_le_of_expired (timed_of_reachable hr) hcurrent hleased hexpiry (by decide)

/-- The fixture is created and claimed. -/
def fixtureLeasing : List Operation :=
  [.createEvaluation ⟨fixtureRequest, ⟨0, by decide⟩⟩, .claimTask fixtureClaim fun _ => false]

/-- With the renewal of its holder, this is a run under the fixture's policy. -/
private theorem fixtureLeasing_underPolicy : UnderPolicy fixtureLeasePolicy
    (fixtureLeasing ++ [.judgeRenewLease (fixtureRenewal fixtureClaim.nodeId)]) where
  duration := by
    intro op hop d hd
    simp only [fixtureLeasing, List.cons_append, List.nil_append, List.mem_cons,
      List.not_mem_nil, or_false] at hop
    rcases hop with rfl | rfl | rfl
    · cases hd
    · exact (Option.some.inj hd).symm
    · exact (Option.some.inj hd).symm
  clock := by decide

/-- Another node's renewal of the expired lease is stale; and the holder's, under the policy of its
claim, does not bring the expiry forward. -/
theorem judgeRenewLease_other_node :
    (∃ db, store.Reachable db ∧ ∀ nodeId, nodeId ≠ fixtureClaim.nodeId →
      judgeRenewLease (fixtureRenewal nodeId) db = (.error .staleLease, db)) ∧
    ∃ x : UnixMillis, Renews (store.run fixtureLeasing)
      (.judgeRenewLease (fixtureRenewal fixtureClaim.nodeId)) fixtureRequest.attemptId x ∧
        2000 ≤ x.value := by
  constructor
  · obtain ⟨db, e, a, hr, hcurrent, hleased, hexpiry, hholds⟩ := fixture_expired
    have hrenewal : ∀ nodeId, (fixtureRenewal nodeId).now.checkedAdd
        (fixtureRenewal nodeId).leasePolicy.leaseDuration = .ok ⟨6000, by decide⟩ :=
      fun _ => UnixMillis.checkedAdd_eq_ok.mpr rfl
    have hlt : ∀ nodeId, (2000 : Int) < (fixtureRenewal nodeId).now.value := fun _ =>
      show (2000 : Int) < 5000 by decide
    refine ⟨db, hr, fun nodeId hne => ?_⟩
    refine (judgeRenewLease_expired_iff.1 hr (hrenewal nodeId) hcurrent hleased hexpiry
      (hlt nodeId)).mpr ?_
    rintro ⟨-, hnode, -⟩
    exact hne (Option.some.inj (hnode.symm.trans hholds.2.1))
  · obtain ⟨payload, db, db', hrun, -, -, hclaimed⟩ :=
      exists_claimed_fixture fixtureRequest fixtureParts_mediaType (by decide +kernel)
    have hrun : store.run fixtureLeasing = db' := hrun
    have hr : store.Reachable db' := ⟨_, hrun⟩
    have hc := coupled_of_reachable hr
    have htriple := hclaimed.rewritten.triple'
    have hlt : (2000 : Int) < (fixtureRenewal fixtureClaim.nodeId).now.value := by decide
    have hle := hc.created_le_of_expired (timed_of_reachable hr) htriple.current? rfl rfl hlt
    have hanswer := judgeRenewLease_holder hc rfl htriple.current? rfl ⟨rfl, rfl, rfl⟩ hle
    have hrenews : Renews (store.run fixtureLeasing)
        (.judgeRenewLease (fixtureRenewal fixtureClaim.nodeId)) fixtureRequest.attemptId
          ⟨6000, by decide⟩ := by
      refine ⟨_, rfl, rfl, ?_⟩
      rw [hrun]
      exact congrArg Answer.directive hanswer
    refine ⟨_, hrenews, ?_⟩
    exact Int.ofNat_le.mp (judgeRenewLease_expired_iff.2 fixtureLeasing_underPolicy hrenews
      (hrun ▸ htriple.attempt) rfl)

end Json
end OpenOJ
