import OpenOJ.Storage.Claim
import OpenOJ.Storage.Fencing
import OpenOJ.Storage.Race

/-!
# Races of claims

A judge node's claim looks its operation id up among all attempts, and claims in a later step when
it is not recorded. The unique index behind that step is per node. Any number of claims of any
number of nodes may mix their steps (`claimRace`), with the other calls of the store in between
(`Operation.LooksUp`). As long as every claim finds its operation id still unrecorded, an operation
id is recorded on one attempt for good, and whoever presents it again is told what has become of
that attempt.

* `RecordedOnce`: every operation id is on at most one attempt. `RecordedOnce.next` says that each
  call keeps it so, and `RecordedOnce.repeats` what the lookup of a repeated claim then answers
  (`Repeats`): its own node has the lease again while it lasts, and another node is refused;
* `RecordedOn.next`: where an operation id is recorded it stays, whatever is called;
* `ClaimsSettled`: what holds after a race of confirmed claims, by `Race.confirmed_preserves`;
* `claims_kept`: such a race obeys the law of operation ids (`ClaimsKept`) at every moment of it.

Without the condition the law fails: in `claims_recorded_twice` two nodes have both looked before
either of them writes, and are leased an attempt each under one operation id.
-/

namespace OpenOJ

open Outcome Race

/-! ### Recorded operation ids -/

section Recorded

variable [Wire] {db db' : Database} {op : Operation} {a a' : AttemptRow} {id : ClaimOperationId}

/-- The call claims under an operation id only after it looked the id up. -/
def Operation.LooksUp : Operation → Prop
  | .claimTaskWithCapabilities _ operationId _ _ => operationId = none
  | _ => True

/-- The id a call claims under is not recorded yet. -/
theorem Operation.LooksUp.unrecorded {command : ClaimTask} (h : op.LooksUp)
    (hclaim : op.claim? db = some (command, some id)) :
    ∀ a ∈ db.attempts.rows, a.claimOperationId ≠ some id := by
  cases op with
  | claimTask => cases hclaim
  | claimTaskWithCapabilities _ operationId =>
    obtain rfl : operationId = none := h
    cases hclaim
  | judgeClaimTask judge =>
    rw [Operation.claim?] at hclaim
    split at hclaim
    · rename_i hreplay
      cases hclaim
      exact claimReplay_eq_none.mp hreplay
    · cases hclaim
  | _ => cases hclaim

/-- A recorded operation id was recorded before, or the call claims the attempt under it. -/
theorem AttemptStep.recorded (h : AttemptStep db op a a') (hid : a'.claimOperationId = some id) :
    a.claimOperationId = some id ∨ ∃ command lease, op.claim? db = some (command, some id) ∧
      Grants db op lease ∧ lease.request.attemptId = a.attemptId := by
  cases h with
  | kept | renewed | ended => exact .inl hid
  | @claimed command operationId lease hclaim hgrant hlease =>
    obtain rfl : operationId = some id := hid
    exact .inr ⟨command, lease, hclaim, hgrant, hlease⟩

theorem AttemptStep.operation_eq (h : AttemptStep db op a a') (hqueued : a.state ≠ .queued) :
    a'.claimOperationId = a.claimOperationId := by
  cases h with
  | kept | renewed | ended => rfl
  | claimed _ _ _ h => exact absurd h hqueued

theorem AttemptStep.payload_eq (h : AttemptStep db op a a') :
    a'.requestPayload = a.requestPayload := by
  cases h <;> rfl

omit [Wire] in
/-- An attempt that records an operation id is not queued. -/
theorem Coupled.not_queued (hc : Coupled db) {k : AttemptId} (ha : db.attempts.find? k = some a)
    (hid : a.claimOperationId = some id) : a.state ≠ .queued := by
  intro hqueued
  rw [((hc.tidy k a ha).queued hqueued).2.2.2] at hid
  cases hid

/-- Each operation id is recorded on at most one attempt. -/
def RecordedOnce (db : Database) : Prop :=
  ∀ a ∈ db.attempts.rows, ∀ b ∈ db.attempts.rows, ∀ id,
    a.claimOperationId = some id → b.claimOperationId = some id → a = b

/-- An attempt that records an operation id after a call was there before it. -/
theorem exists_attemptStep (hc : Coupled db) (op : Operation)
    (ha : a' ∈ (store.next op db).attempts.rows) (hid : a'.claimOperationId = some id) :
    ∃ a ∈ db.attempts.rows, a.attemptId = a'.attemptId ∧ AttemptStep db op a a' := by
  have hstored : (store.next op db).attempts.find? a'.attemptId = some a' := Table.mem_rows.mp ha
  cases hfind : db.attempts.find? a'.attemptId with
  | none => exact absurd (attempt_new hc op hfind hstored) ((hc.next op).not_queued hstored hid)
  | some a =>
    obtain ⟨b, hb, hstep⟩ := attempt_step hc op hfind
    obtain rfl := Option.some.inj (hb.symm.trans hstored)
    exact ⟨a, Table.mem_of_find? hfind, Table.key_of_find? hfind, hstep⟩

/-- **A call that looks its operation id up** keeps every id on one attempt. -/
theorem RecordedOnce.next (hc : Coupled db) (h : RecordedOnce db) (hop : op.LooksUp) :
    RecordedOnce (store.next op db) := by
  intro a' ha' b' hb' id hida hidb
  obtain ⟨a, ha, hkey, hstep⟩ := exists_attemptStep hc op ha' hida
  obtain ⟨b, hb, hkey', hstep'⟩ := exists_attemptStep hc op hb' hidb
  have hsame : a.attemptId = b.attemptId := by
    rcases hstep.recorded hida with hold | ⟨command, lease, hclaim, hgrant, hlease⟩
    · rcases hstep'.recorded hidb with hold' | ⟨command, lease, hclaim, -, -⟩
      · rw [h a ha b hb id hold hold']
      · exact absurd hold (hop.unrecorded hclaim a ha)
    · rcases hstep'.recorded hidb with hold' | ⟨_, _, -, hgrant', hlease'⟩
      · exact absurd hold' (hop.unrecorded hclaim b hb)
      · rw [← hlease, hgrant.unique hgrant', hlease']
  exact Table.eq_of_key ha' hb' (hkey.symm.trans (hsame.trans hkey'))

/-- A lease is recorded under an operation id: its attempt carries the id, the node and the token
of the lease, and the request. -/
structure RecordedOn (db : Database) (command : JudgeClaim) (lease : TaskLease) (a : AttemptRow) :
    Prop where
  stored : db.attempts.find? lease.request.attemptId = some a
  operation : a.claimOperationId = some command.operationId
  node : a.nodeId = some command.nodeId
  token : a.leaseToken = some lease.leaseToken
  request : decodeEvaluationRequest a.requestPayload = .ok lease.request

/-- A recorded lease stays recorded, whatever is called. -/
theorem RecordedOn.next {command : JudgeClaim} {lease : TaskLease} (hc : Coupled db)
    (h : RecordedOn db command lease a) (op : Operation) :
    ∃ a', RecordedOn (store.next op db) command lease a' := by
  have hqueued := hc.not_queued h.stored h.operation
  obtain ⟨a', ha', hstep⟩ := attempt_step hc op h.stored
  obtain ⟨-, hnode, htoken⟩ := hstep.owner_eq hqueued
  exact ⟨a', ha', (hstep.operation_eq hqueued).trans h.operation, hnode.trans h.node,
    htoken.trans h.token, hstep.payload_eq ▸ h.request⟩

/-- A lease that a lookup answers is recorded. -/
theorem recordedOn_of_replay {command : JudgeClaim} {lease : TaskLease} (hg : Legible db)
    (h : claimReplay command db = .ok (some lease)) : ∃ a, RecordedOn db command lease a := by
  rw [claimReplay] at h
  cases hfind : db.attempts.rows.find? fun a => a.claimOperationId = some command.operationId with
  | none =>
    rw [hfind] at h
    cases h
  | some row =>
    have hrecorded := List.find?_some hfind
    have hstored : db.attempts.find? row.attemptId = some row :=
      Table.mem_rows.mp (List.mem_of_find?_eq_some hfind)
    simp only [hfind, bind_eq_ok, orRefuse_eq_ok, refuseIf_eq_ok, reportAs_eq_ok, not_not,
      exists_const, pure, Except.pure, Except.ok.injEq, Option.some.injEq] at h
    obtain ⟨nodeId, hnode, rfl, -, token, htoken, -, -, request, hdecode, -, -, -, -, rfl⟩ := h
    obtain ⟨request', hdecode', hnames, -⟩ := hg _ row hstored
    obtain rfl := Except.ok.inj (hdecode'.symm.trans hdecode)
    refine ⟨row, ?_, of_decide_eq_true hrecorded, hnode, htoken, hdecode⟩
    rwa [hnames.2.1]

/-- A lease that a claim wrote is recorded, on the attempt of the task it took. -/
theorem recordedOn_of_leases {command : JudgeClaim} {t : TaskRow} {lease : TaskLease}
    (h : Leases db db' command.claimTask (some command.operationId) t lease) :
    lease.request.attemptId = t.attemptId ∧ ∃ a, RecordedOn db' command lease a := by
  obtain ⟨e, a, hgranted, hclaimed⟩ := h
  have htask : t.attemptId = e.currentAttemptId := Table.key_of_find? hclaimed.triple.task
  have hid : lease.request.attemptId = e.currentAttemptId :=
    hgranted.names.2.1.trans hclaimed.triple.attemptId
  have hstored : db'.attempts.find? lease.request.attemptId = some (a.claim
      command.claimTask.nodeId command.claimTask.leaseToken lease.expiresAt.value
        (some command.operationId) command.claimTask.now.value) := by
    rw [hid, hclaimed.attempts, Function.update_self]
  exact ⟨hid.trans htask.symm, _, hstored, rfl, rfl, congrArg some hgranted.leaseToken.symm,
    hgranted.request⟩

/-- A lease that a claim answers is recorded. -/
theorem recordedOn_of_claim (hl : LosslessRequests) (hr : store.Reachable db)
    {command : JudgeClaim} {locked : AttemptId → Bool} {lease : TaskLease}
    (h : (judgeClaimTask command locked db).1 = .ok lease) :
    ∃ a, RecordedOn (judgeClaimTask command locked db).2 command lease a := by
  rw [judgeClaimTask] at h ⊢
  cases hreplay : claimReplay command db with
  | error e =>
    rw [hreplay] at h
    cases h
  | ok replayed =>
    rw [hreplay] at h
    cases replayed with
    | some replayed =>
      obtain rfl := Except.ok.inj h
      exact recordedOn_of_replay (legible_of_reachable hl hr) hreplay
    | none =>
      simp only [judgeClaimWrite, claimTaskWithCapabilities] at h ⊢
      rcases transact_cases (claimTransaction command.claimTask (some command.operationId)
        (some (command.declaredCapabilities.map (·.value))) locked db)
          (fun lease _ => .ok lease) db with ⟨e, -, heq⟩ | ⟨granted, db', hok, heq⟩
      · rw [heq] at h
        cases h
      · rw [heq] at h ⊢
        obtain rfl := Except.ok.inj h
        obtain ⟨e, a, t, -, hgranted, hclaimed⟩ :=
          claimTransaction_spec (coupled_of_reachable hr).linked hok
        exact (recordedOn_of_leases ⟨e, a, hgranted, hclaimed⟩).2

/-- The attempt of a lease is still leased. -/
def StillLeased (db : Database) (lease : TaskLease) : Prop :=
  ∃ a, db.attempts.find? lease.request.attemptId = some a ∧ a.state = .leased

/-- What a repeated claim is to be told, once a lease was obtained under its operation id: its own
node is told of the same lease for as long as it lasts. -/
structure Repeats (db : Database) (command : JudgeClaim) (lease : TaskLease) (repeated : JudgeClaim)
    (answer : Except StoreError TaskLease) : Prop where
  leased : repeated.nodeId = command.nodeId → StillLeased db lease → ∃ replayed,
    answer = .ok replayed ∧ replayed.request = lease.request ∧
      replayed.leaseToken = lease.leaseToken
  ended : repeated.nodeId = command.nodeId → ¬StillLeased db lease →
    answer = .error .leaseConflict
  other : repeated.nodeId ≠ command.nodeId → answer = .error .idempotencyConflict

/-- The row a lookup finds. -/
theorem RecordedOnce.find? {command : JudgeClaim} {lease : TaskLease} (h : RecordedOnce db)
    (hrecorded : RecordedOn db command lease a) :
    db.attempts.rows.find? (fun a => a.claimOperationId = some command.operationId) = some a := by
  have hmem : a ∈ db.attempts.rows := Table.mem_of_find? hrecorded.stored
  have honly :
      OnlyRow db.attempts.rows (fun a => a.claimOperationId = some command.operationId) a :=
    fun b => ⟨fun ⟨hb, hid⟩ => h b hb a hmem _ hid hrecorded.operation, fun hb =>
      hb ▸ ⟨hmem, hrecorded.operation⟩⟩
  exact honly.find?

omit [Wire] in
/-- The expiry of a lease can be read. -/
theorem exists_expiresAt (hc : Coupled db) {k : AttemptId} (ha : db.attempts.find? k = some a)
    (hleased : a.state = .leased) : ∃ expiry value expiresAt, a.leaseExpiresAtMs = some expiry ∧
      toU64 expiry = some value ∧ UnixMillis.new value = .ok expiresAt := by
  obtain ⟨expiry, hexpiry⟩ := Option.isSome_iff_exists.mp ((hc.tidy k a ha).leased hleased).2.2
  have hvalid : a.Valid := Table.check_of_find? ha
  obtain ⟨hpos, hle⟩ := hvalid.expiryBound expiry hexpiry
  have hbound : expiry.toNat ≤ maxUnixMillis := by omega
  exact ⟨expiry, expiry.toNat, ⟨expiry.toNat, hbound⟩, hexpiry, if_pos hpos, dif_pos hbound⟩

/-- **A recorded lease is replayed.** The lookup of a repeated claim finds what it is to answer. -/
theorem RecordedOnce.repeats {command repeated : JudgeClaim} {lease : TaskLease} (hc : Coupled db)
    (h : RecordedOnce db) (hrecorded : RecordedOn db command lease a)
    (hid : repeated.operationId = command.operationId) :
    ∃ answer, (claimReplay repeated db = answer.map some) ∧
      Repeats db command lease repeated answer := by
  have hfind := h.find? hrecorded
  have hstill : StillLeased db lease ↔ a.state = .leased := by
    constructor
    · rintro ⟨b, hb, hleased⟩
      obtain rfl := Option.some.inj (hb.symm.trans hrecorded.stored)
      exact hleased
    · exact fun hleased => ⟨a, hrecorded.stored, hleased⟩
  simp only [claimReplay, hid, hfind, hrecorded.node, orRefuse_some, ok_bind]
  by_cases hnode : command.nodeId = repeated.nodeId
  · rw [refuseIf_neg (not_not.mpr hnode)]
    by_cases hleased : a.state = .leased
    · obtain ⟨expiry, value, expiresAt, hexpiry, hvalue, hnew⟩ :=
        exists_expiresAt hc hrecorded.stored hleased
      rw [refuseIf_neg (not_not.mpr hleased)]
      simp only [ok_bind, hrecorded.token, hexpiry, hrecorded.request, hvalue, hnew, orRefuse_some,
        reportAs_ok]
      refine ⟨.ok ⟨lease.request, repeated.nodeId, lease.leaseToken, expiresAt⟩, rfl, ?_, ?_, ?_⟩
      · exact fun _ _ => ⟨_, rfl, rfl, rfl⟩
      · exact fun _ hended => absurd (hstill.mpr hleased) hended
      · exact fun hother => absurd hnode.symm hother
    · rw [refuseIf_pos hleased]
      refine ⟨.error .leaseConflict, rfl, ?_, ?_, ?_⟩
      · exact fun _ hlease => absurd (hstill.mp hlease) hleased
      · exact fun _ _ => rfl
      · exact fun hother => absurd hnode.symm hother
  · rw [refuseIf_pos hnode]
    refine ⟨.error .idempotencyConflict, rfl, ?_, ?_, fun _ => rfl⟩
    · exact fun hsame => absurd hsame.symm hnode
    · exact fun hsame => absurd hsame.symm hnode

end Recorded

/-! ### Races -/

section Races

variable [Wire]

/-- The two steps of `judge_claim_task`; the second one skips the tasks that are locked. -/
def claimCall (command : JudgeClaim) :
    SplitCall Database (AttemptId → Bool) (Except StoreError TaskLease) where
  lookup db :=
    match claimReplay command db with
    | .ok none => none
    | .ok (some replayed) => some (.ok replayed)
    | .error e => some (.error e)
  write locked db := judgeClaimWrite command locked db

/-- A claim is its two steps, one right after the other. -/
theorem claimCall_alone (command : JudgeClaim) (locked : AttemptId → Bool) (db : Database) :
    (claimCall command).alone locked db = judgeClaimTask command locked db := by
  simp only [judgeClaimTask, SplitCall.alone, claimCall]
  rcases claimReplay command db with e | _ | replayed <;> rfl

theorem claimCall_lookup_none {command : JudgeClaim} {db : Database}
    (h : claimReplay command db = .ok none) : (claimCall command).lookup db = none := by
  simp only [claimCall, h]

theorem claimCall_lookup {command : JudgeClaim} {db : Database}
    {answer : Except StoreError TaskLease} (h : claimReplay command db = answer.map some) :
    (claimCall command).lookup db = some answer := by
  simp only [claimCall, h]
  cases answer <;> rfl

variable {ι : Type} [DecidableEq ι]

/-- The claims of judge nodes on a store that starts without rows, with its other calls in between.
A claim that is cut off is refused as unavailable. -/
def claimRace (commands : ι → JudgeClaim) :
    Machine (State ι Database (Except StoreError TaskLease))
      (Move ι (AttemptId → Bool) {op : Operation // op.LooksUp}) Unit :=
  machine (fun i => claimCall (commands i)) (.error .unavailable) (fun op => store.next op) .empty

section Moves

variable (commands : ι → JudgeClaim) {st : State ι Database (Except StoreError TaskLease)} {i : ι}

/-- Any other call of the store. -/
theorem claimRace_other (op : {op : Operation // op.LooksUp}) :
    (claimRace commands).next (.other op) st = ⟨store.next op st.shared, st.phase⟩ :=
  Race.next_other _ st op

/-- A claim that is not recorded goes on to write. -/
theorem claimRace_looked (h : st.phase i = .waiting)
    (hreplay : claimReplay (commands i) st.shared = .ok none) (locked : AttemptId → Bool) :
    (claimRace commands).next (.call i locked .none) st =
      ⟨st.shared, Function.update st.phase i .writing⟩ :=
  next_looked _ h (claimCall_lookup_none hreplay) locked

/-- A claim that is recorded is answered. -/
theorem claimRace_replayed {answer : Except StoreError TaskLease} (h : st.phase i = .waiting)
    (hreplay : claimReplay (commands i) st.shared = answer.map some) (locked : AttemptId → Bool) :
    (claimRace commands).next (.call i locked .none) st =
      ⟨st.shared, Function.update st.phase i (.answered answer)⟩ :=
  next_replayed _ h (claimCall_lookup hreplay) locked

/-- A claim that writes. -/
theorem claimRace_written {answer : Except StoreError TaskLease} {db : Database}
    {locked : AttemptId → Bool} (h : st.phase i = .writing)
    (hwrite : judgeClaimWrite (commands i) locked st.shared = (answer, db)) :
    (claimRace commands).next (.call i locked .none) st =
      ⟨db, Function.update st.phase i (.answered answer)⟩ := by
  refine (next_written _ h locked).trans ?_
  simp only [claimCall, hwrite]

/-- A claim that takes both of its steps before others start is confirmed. -/
theorem claimRace_sequential {js : List ι} (hjs : (i :: js).Nodup)
    (hst : ∀ j ∈ i :: js, st.phase j = .waiting)
    (hreplay : claimReplay (commands i) st.shared = .ok none) (locked : AttemptId → Bool) :
    (claimRace commands).Meets (Confirmed fun i => claimCall (commands i)) st
      (.call i locked .none :: .call i locked .none :: js.map fun j => .call j locked .none) :=
  confirmed_sequential _ hjs hst (claimCall_lookup_none hreplay) locked locked

end Moves

/-- The law of operation ids in a run: an id is only ever recorded on one attempt, and from the
answer that grants a lease under it, every call that answers under it repeats that answer. -/
structure ClaimsKept (commands : ι → JudgeClaim)
    (moves : List (Move ι (AttemptId → Bool) {op : Operation // op.LooksUp})) : Prop where
  once : ∀ earlier, earlier <+: moves →
    ∀ a ∈ ((claimRace commands).run earlier).shared.attempts.rows,
      ∀ b ∈ ((claimRace commands).run moves).shared.attempts.rows, ∀ id,
        a.claimOperationId = some id → b.claimOperationId = some id → a.attemptId = b.attemptId
  repeated : ∀ earlier i j locked lease, earlier ++ [.call j locked .none] <+: moves →
    ((claimRace commands).run earlier).phase i = .answered (.ok lease) →
      (commands j).operationId = (commands i).operationId →
        (∀ answer, ((claimRace commands).run earlier).phase j ≠ .answered answer) →
          ∃ answer,
            ((claimRace commands).run (earlier ++ [.call j locked .none])).phase j =
              .answered answer ∧
            ((claimRace commands).run (earlier ++ [.call j locked .none])).shared =
              ((claimRace commands).run earlier).shared ∧
            Repeats ((claimRace commands).run earlier).shared (commands i) lease (commands j) answer

variable {commands : ι → JudgeClaim}
  {moves : List (Move ι (AttemptId → Bool) {op : Operation // op.LooksUp})}

/-- What holds after a race of confirmed claims. -/
structure ClaimsSettled (commands : ι → JudgeClaim)
    (st : State ι Database (Except StoreError TaskLease)) : Prop where
  reachable : store.Reachable st.shared
  once : RecordedOnce st.shared
  leases : ∀ i lease, st.phase i = .answered (.ok lease) →
    ∃ a, RecordedOn st.shared (commands i) lease a

/-- **Confirmed claims settle.** What is more, whatever every call of the store preserves holds
on. -/
private theorem ClaimsSettled.runFrom (hl : LosslessRequests) {P : Database → Prop}
    (hP : ∀ db op, store.Reachable db → P db → P (store.next op db))
    {st : State ι Database (Except StoreError TaskLease)} (hst : ClaimsSettled commands st)
    (hdb : P st.shared)
    (h : (claimRace commands).Meets (Confirmed fun i => claimCall (commands i)) st moves) :
    ClaimsSettled commands ((claimRace commands).runFrom st moves) ∧
      P ((claimRace commands).runFrom st moves).shared := by
  let I : Database → Prop := fun db => store.Reachable db ∧ RecordedOnce db ∧ P db
  let G : ι → Except StoreError TaskLease → Database → Prop := fun i answer db =>
    ∀ lease, answer = .ok lease → ∃ a, RecordedOn db (commands i) lease a
  -- a call keeps the invariant and every lease that was recorded
  have hnext : ∀ (op : Operation) db, op.LooksUp → I db → Keeps I G db (store.next op db) := by
    rintro op db hop ⟨hr, honce, hdb⟩
    have hc := coupled_of_reachable hr
    refine ⟨⟨hr.next op, honce.next hc hop, hP db op hr hdb⟩, fun i answer hanswer lease heq => ?_⟩
    obtain ⟨a, ha⟩ := hanswer lease heq
    exact ha.next hc op
  have hcall : ∀ i locked db, I db →
      Keeps I G db ((claimCall (commands i)).alone locked db).2 ∧
        G i ((claimCall (commands i)).alone locked db).1
          ((claimCall (commands i)).alone locked db).2 := by
    intro i locked db hI
    have hkeeps := hnext (.judgeClaimTask (commands i) locked) db trivial hI
    rw [next_judgeClaimTask] at hkeeps
    rw [claimCall_alone]
    exact ⟨hkeeps, fun lease heq => recordedOn_of_claim hl hI.1 heq⟩
  obtain ⟨⟨hr, honce, hdb⟩, hleases⟩ := confirmed_preserves_from (I := I) (G := G) hcall
    (fun (op : {op : Operation // op.LooksUp}) db hI => hnext op.1 db op.2 hI)
    (by rintro i db - - lease ⟨⟩) ⟨hst.reachable, hst.once, hdb⟩
    (fun i answer hanswer lease heq => hst.leases i lease (heq ▸ hanswer)) h
  exact ⟨⟨hr, honce, fun i lease hanswer => hleases i _ hanswer lease rfl⟩, hdb⟩

theorem claimsSettled_start : ClaimsSettled commands (claimRace commands).start where
  reachable := store.reachable_start
  once _ ha := absurd ha List.not_mem_nil
  leases _ _ h := nomatch h

/-- An attempt that records an operation id records it for good. -/
private theorem recorded_next {k : AttemptId} {id : ClaimOperationId} (db : Database)
    (op : Operation) (hr : store.Reachable db)
    (h : ∃ a, db.attempts.find? k = some a ∧ a.claimOperationId = some id) :
    ∃ a, (store.next op db).attempts.find? k = some a ∧ a.claimOperationId = some id := by
  obtain ⟨a, ha, hid⟩ := h
  have hc := coupled_of_reachable hr
  obtain ⟨a', ha', hstep⟩ := attempt_step hc op ha
  exact ⟨a', ha', (hstep.operation_eq (hc.not_queued ha hid)).trans hid⟩

/-- The next step of a call whose operation id is recorded for a lease. -/
private theorem ClaimsSettled.step {st : State ι Database (Except StoreError TaskLease)}
    (hst : ClaimsSettled commands st) {i j : ι} {lease : TaskLease} (locked : AttemptId → Bool)
    (hi : st.phase i = .answered (.ok lease))
    (hid : (commands j).operationId = (commands i).operationId)
    (hj : ∀ answer, st.phase j ≠ .answered answer)
    (h : Confirmed (fun i => claimCall (commands i)) st
      (.call j locked .none : Move ι _ {op : Operation // op.LooksUp})) :
    ∃ answer, Repeats st.shared (commands i) lease (commands j) answer ∧
      (claimRace commands).next (.call j locked .none) st =
        ⟨st.shared, Function.update st.phase j (.answered answer)⟩ := by
  obtain ⟨a, ha⟩ := hst.leases i lease hi
  obtain ⟨answer, hreplay, hrepeats⟩ :=
    hst.once.repeats (coupled_of_reachable hst.reachable) ha hid
  refine ⟨answer, hrepeats, ?_⟩
  cases hphase : st.phase j with
  | waiting => exact claimRace_replayed commands hphase hreplay locked
  | writing =>
    -- its write would not be confirmed
    have hnone := h j locked .none rfl nofun (by rw [hphase])
    rw [claimCall_lookup hreplay] at hnone
    cases hnone
  | answered answer => exact absurd hphase (hj answer)

/-- **Operation ids are kept** in every run of claims that claim only while their operation id is
unrecorded. -/
theorem claims_kept (hl : LosslessRequests)
    (h : (claimRace commands).Meets (Confirmed fun i => claimCall (commands i))
      (claimRace commands).start moves) : ClaimsKept commands moves := by
  refine ⟨?_, ?_⟩
  · rintro earlier ⟨later, rfl⟩ a ha b hb id hida hidb
    obtain ⟨hearlier, hlater⟩ := Machine.meets_append.mp h
    obtain ⟨hsettles, -⟩ := claimsSettled_start.runFrom hl (P := fun _ => True)
      (fun _ _ _ _ => trivial) trivial hearlier
    obtain ⟨hsettles', a', ha', hida'⟩ := hsettles.runFrom hl recorded_next
      ⟨a, Table.mem_rows.mp ha, hida⟩ hlater
    rw [Machine.run_append] at hb
    obtain rfl := hsettles'.once a' (Table.mem_of_find? ha') b hb id hida' hidb
    exact (Table.key_of_find? ha').symm
  · rintro earlier i j locked lease ⟨later, rfl⟩ hi hid hj
    obtain ⟨hconcat, -⟩ := Machine.meets_append.mp h
    obtain ⟨hearlier, hstep, -⟩ := Machine.meets_append.mp hconcat
    obtain ⟨hsettles, -⟩ := claimsSettled_start.runFrom hl (P := fun _ => True)
      (fun _ _ _ _ => trivial) trivial hearlier
    obtain ⟨answer, hrepeats, hnext⟩ := hsettles.step locked hi hid hj hstep
    refine ⟨answer, ?_, ?_, hrepeats⟩
    · rw [Machine.run_concat]
      exact (congrArg (fun st => st.phase j) hnext).trans (Function.update_self ..)
    · rw [Machine.run_concat]
      exact (congrArg State.shared hnext).trans rfl

/-- Two claims that look their ids up before either of them claims, and a call before the second
one claims. -/
private theorem run_overtaken {i j : ι} (hij : i ≠ j) {op op' : {op : Operation // op.LooksUp}}
    {db₁ db₂ db₃ db₄ : Database} {locked locked' : AttemptId → Bool}
    {answer answer' : Except StoreError TaskLease} (h₁ : store.next op .empty = db₁)
    (hi : claimReplay (commands i) db₁ = .ok none) (hj : claimReplay (commands j) db₁ = .ok none)
    (h₂ : judgeClaimWrite (commands i) locked db₁ = (answer, db₂)) (h₃ : store.next op' db₂ = db₃)
    (h₄ : judgeClaimWrite (commands j) locked' db₃ = (answer', db₄)) :
    ((claimRace commands).run [.other op, .call i locked .none, .call j locked' .none,
      .call i locked .none, .other op', .call j locked' .none]).shared = db₄ := by
  let waiting : ι → Race.Phase (Except StoreError TaskLease) := fun _ => .waiting
  let looked := Function.update waiting i .writing
  let both := Function.update looked j .writing
  let leased := Function.update both i (.answered answer)
  have hstart : (claimRace commands).next (.other op) (claimRace commands).start =
      ⟨db₁, waiting⟩ := by
    rw [claimRace_other, ← h₁]
    rfl
  have hlooked : (claimRace commands).next (.call i locked .none) ⟨db₁, waiting⟩ =
      ⟨db₁, looked⟩ := claimRace_looked commands rfl hi _
  have hboth : (claimRace commands).next (.call j locked' .none) ⟨db₁, looked⟩ = ⟨db₁, both⟩ := by
    have hphase : looked j = .waiting := Function.update_of_ne hij.symm ..
    exact claimRace_looked commands hphase hj _
  have hleased : (claimRace commands).next (.call i locked .none) ⟨db₁, both⟩ = ⟨db₂, leased⟩ := by
    have hphase : both i = .writing :=
      (Function.update_of_ne hij ..).trans (Function.update_self ..)
    exact claimRace_written commands hphase h₂
  have hother : (claimRace commands).next (.other op') ⟨db₂, leased⟩ = ⟨db₃, leased⟩ := by
    rw [claimRace_other, h₃]
  have htwice : (claimRace commands).next (.call j locked' .none) ⟨db₃, leased⟩ =
      ⟨db₄, Function.update leased j (.answered answer')⟩ := by
    have hphase : leased j = .writing :=
      (Function.update_of_ne hij.symm ..).trans (Function.update_self ..)
    exact claimRace_written commands hphase h₄
  simp only [Machine.run, Machine.runFrom_cons, Machine.runFrom_nil, hstart, hlooked, hboth,
    hleased, hother, htwice]

end Races

section Json

attribute [local instance] jsonWire

/-- Claims under one operation id: the fixture's, and another node's after that lease expired. -/
def fixtureClaims (second : Bool) : JudgeClaim where
  nodeId := if second then strangerId else fixtureClaim.nodeId
  declaredCapabilities := fixtureRequest.requiredCapabilities
  operationId := fixtureClaimOperation
  leaseToken := fixtureClaim.leaseToken
  now := if second then fixtureLate else fixtureClaim.now
  leasePolicy := fixtureLeasePolicy

/-- The fixture is created. -/
def fixtureCreation : {op : Operation // op.LooksUp} :=
  ⟨.createEvaluation ⟨fixtureRequest, ⟨0, Nat.zero_le maxUnixMillis⟩⟩, trivial⟩

/-- Both nodes look the operation id up, the first one claims under it, and the second one claims
once the evaluation is queued again. -/
def fixtureMoves : List (Move Bool (AttemptId → Bool) {op : Operation // op.LooksUp}) :=
  [.other fixtureCreation,
    .call false (fun _ => false) .none, .call true (fun _ => false) .none,
    .call false (fun _ => false) .none, .other ⟨.retryExpired ⟨fixtureNext, fixtureLate⟩, trivial⟩,
    .call true (fun _ => false) .none]

/-- The fixture's task declares what the fixture's claims declare. -/
private theorem fixture_declared (request : EvaluationRequest)
    (hsame : request.requiredCapabilities = fixtureRequest.requiredCapabilities) (second : Bool)
    (now : Int) : ∀ capabilities ∈ some ((fixtureClaims second).declaredCapabilities.map (·.value)),
      (taskRow request now).requiredCapabilities ⊆ capabilities := by
  rintro _ ⟨⟩
  change request.requiredCapabilities.map (·.value) ⊆ _
  rw [hsame]
  exact List.Subset.refl _

/-- The fixture was created, and the first node leased it under its operation id. -/
structure FirstLease (payload : List UInt8) (db₁ db₂ : Database) (first : TaskLease) : Prop where
  created_next : store.next fixtureCreation .empty = db₁
  encodes : encodeEvaluationRequest fixtureRequest = .ok payload
  created : Created .empty db₁ fixtureRequest payload 0
  unrecorded : ∀ s ∈ db₁.attempts.rows, s.claimOperationId ≠ some fixtureClaimOperation
  claim : judgeClaimWrite (fixtureClaims false) (fun _ => false) db₁ = (.ok first, db₂)
  granted : Granted (fixtureClaims false).claimTask (attemptRow fixtureRequest payload 0) first
  claimed : Claimed db₁ db₂ (evaluationRow fixtureRequest payload 0)
    (attemptRow fixtureRequest payload 0) (taskRow fixtureRequest 0) (fixtureClaims false).nodeId
    (fixtureClaims false).leaseToken first.expiresAt.value (some fixtureClaimOperation)
    (fixtureClaims false).now.value
  reachable : store.Reachable db₂
  once : RecordedOnce db₂

private theorem exists_firstLease : ∃ payload db₁ db₂ first, FirstLease payload db₁ db₂ first := by
  have hl : LosslessRequests := WireType.json_lossless _
  obtain ⟨payload, db₁, hrun, hpayload, hcreated, ht, hnone⟩ :=
    exists_oldest_fixture ⟨0, by decide⟩ (fixture_declared fixtureRequest rfl false _)
  have hnext₁ : store.next fixtureCreation .empty = db₁ := by
    rw [← hrun, Machine.run, Machine.runFrom_cons, Machine.runFrom_nil, store, fixtureCreation]
  have hr₁ : store.Reachable db₁ := ⟨_, hrun⟩
  have hc₁ := coupled_of_reachable hr₁
  have honce₁ : RecordedOnce db₁ := by
    intro a ha b hb id hid
    rw [hnone a ha] at hid
    cases hid
  have hunrecorded : ∀ s ∈ db₁.attempts.rows, s.claimOperationId ≠ some fixtureClaimOperation := by
    intro s hs
    rw [hnone s hs]
    rintro ⟨⟩
  have hadmits : (fixtureClaims false).claimTask.Admits db₁ (some fixtureClaimOperation)
      (taskRow fixtureRequest 0) := by
    refine ⟨by decide, fun s hs hrecorded => ?_⟩
    rw [hnone s hs] at hrecorded
    cases hrecorded
  have hexpires : (fixtureClaims false).claimTask.now.checkedAdd
      (fixtureClaims false).claimTask.leaseDuration = .ok ⟨2000, by decide⟩ :=
    UnixMillis.checkedAdd_eq_ok.mpr rfl
  obtain ⟨first, db₂, hclaim, e, a, hgranted, hclaimed⟩ := claim_leases hc₁
    (legible_of_reachable hl hr₁) (timed_of_reachable hr₁) hexpires ht hadmits
  have hjudge : judgeClaimTask (fixtureClaims false) (fun _ => false) db₁ = (.ok first, db₂) := by
    rw [judgeClaimTask, claimReplay_eq_none.mpr hunrecorded]
    exact hclaim
  have hnext₂ : store.next (.judgeClaimTask (fixtureClaims false) fun _ => false) db₁ = db₂ := by
    rw [next_judgeClaimTask, hjudge]
  obtain ⟨rfl, rfl, -⟩ : e = evaluationRow fixtureRequest payload 0 ∧
      a = attemptRow fixtureRequest payload 0 ∧ _ := by
    rcases hcreated.triple_cases hclaimed.triple with h | h
    · exact h
    · cases h.evaluation
  exact ⟨payload, db₁, db₂, first, hnext₁, hpayload, hcreated, hunrecorded, hclaim, hgranted,
    hclaimed, hnext₂ ▸ hr₁.next _, hnext₂ ▸ honce₁.next hc₁ trivial⟩

/-- The lease is recorded on the fixture's attempt. -/
private theorem FirstLease.recordedOn {payload : List UInt8} {db₁ db₂ : Database}
    {first : TaskLease} (h : FirstLease payload db₁ db₂ first) :
    first.request.attemptId = fixtureRequest.attemptId ∧
      ∃ a, RecordedOn db₂ (fixtureClaims false) first a :=
  recordedOn_of_leases (t := taskRow fixtureRequest 0) ⟨_, _, h.granted, h.claimed⟩

/-- The first node leases the fixture, the evaluation is queued again, and the second node leases
the next attempt. -/
private theorem exists_two_leases :
    ∃ db₁ db₂ db₃ db₄ first second a b,
      store.next fixtureCreation .empty = db₁ ∧
      (∀ s ∈ db₁.attempts.rows, s.claimOperationId ≠ some fixtureClaimOperation) ∧
      judgeClaimWrite (fixtureClaims false) (fun _ => false) db₁ = (.ok first, db₂) ∧
      store.next (.retryExpired ⟨fixtureNext, fixtureLate⟩) db₂ = db₃ ∧
      judgeClaimWrite (fixtureClaims true) (fun _ => false) db₃ = (.ok second, db₄) ∧
      RecordedOn db₄ (fixtureClaims false) first a ∧
      RecordedOn db₄ (fixtureClaims true) second b ∧
      first.request.attemptId = fixtureRequest.attemptId ∧
      second.request.attemptId = fixtureNext.attemptId := by
  have hl : LosslessRequests := WireType.json_lossless _
  obtain ⟨payload, db₁, db₂, first, hfirstLease⟩ := exists_firstLease
  obtain ⟨hfirst, a₂, ha₂⟩ := hfirstLease.recordedOn
  have hr₂ := hfirstLease.reachable
  have hcreated := hfirstLease.created
  have hclaimed := hfirstLease.claimed
  -- its lease has expired, and the evaluation is queued again
  have htriple₂ := hclaimed.rewritten.triple'
  have hexpiry : (first.expiresAt.value : Int) < fixtureLate.value := by
    rw [hfirstLease.granted.expiresAt]
    decide
  have hmem : (_, _) ∈ expired fixtureLate.value db₂ :=
    (coupled_of_reachable hr₂).mem_expired.mpr ⟨⟨_, htriple₂⟩, rfl, _, rfl, hexpiry⟩
  obtain ⟨hattempt, hkey⟩ := hclaimed.fixtureNext_unused hcreated
  have hisNext : IsNextRequest fixtureRequest fixtureNext fixtureNext.attemptId
      fixtureNext.idempotencyKey := rfl
  obtain ⟨payload', snapshot, db₃, -, hretry, hsuperseded⟩ := retryExpired_ok hl hr₂ htriple₂ hmem
    (decode_of_encode hl hfirstLease.encodes) hisNext hattempt hkey
  have hnext₃ : store.next (.retryExpired ⟨fixtureNext, fixtureLate⟩) db₂ = db₃ := by
    rw [next_retryExpired, hretry]
  have hr₃ : store.Reachable db₃ := hnext₃ ▸ hr₂.next _
  have hc₃ := coupled_of_reachable hr₃
  have honce₃ : RecordedOnce db₃ :=
    hnext₃ ▸ hfirstLease.once.next (coupled_of_reachable hr₂) trivial
  obtain ⟨a₃, ha₃⟩ : ∃ a, RecordedOn db₃ (fixtureClaims false) first a :=
    hnext₃ ▸ ha₂.next (coupled_of_reachable hr₂) _
  -- the second node's claim
  have ht₃ : IsOldest db₃ (some ((fixtureClaims true).declaredCapabilities.map (·.value)))
      (taskRow fixtureNext fixtureLate.value) := by
    refine hsuperseded.triple'.isOldest hc₃ rfl (fixture_declared fixtureNext rfl true _)
      fun f b s hf => ?_
    rcases hsuperseded.triple_cases hf with ⟨rfl, -, -⟩ | hf
    · rfl
    · rcases hclaimed.rewritten.triple_cases hf with ⟨rfl, -, -⟩ | hf
      · rfl
      · rcases hcreated.triple_cases hf with ⟨rfl, -, -⟩ | hf
        · rfl
        · cases hf.evaluation
  have hadmits₃ : (fixtureClaims true).claimTask.Admits db₃ (some fixtureClaimOperation)
      (taskRow fixtureNext fixtureLate.value) := by
    refine ⟨by decide, fun s hs _ hid hnode => ?_⟩
    -- the row that records the id is the first node's
    obtain rfl := honce₃ s hs a₃ (Table.mem_of_find? ha₃.stored) _ hid ha₃.operation
    exact absurd (ha₃.node.symm.trans hnode) (by decide +kernel)
  have hexpires₃ : (fixtureClaims true).claimTask.now.checkedAdd
      (fixtureClaims true).claimTask.leaseDuration = .ok ⟨6000, by decide⟩ :=
    UnixMillis.checkedAdd_eq_ok.mpr rfl
  obtain ⟨second, db₄, hclaim₄, hleases₄⟩ := claim_leases hc₃ (legible_of_reachable hl hr₃)
    (timed_of_reachable hr₃) hexpires₃ ht₃ hadmits₃
  have hrecorded₄ : _ ∧ ∃ b, RecordedOn db₄ (fixtureClaims true) second b :=
    recordedOn_of_leases hleases₄
  obtain ⟨hsecond, b₄, hb₄⟩ := hrecorded₄
  have hnext₄ : store.next (.claimTaskWithCapabilities (fixtureClaims true).claimTask
      (some fixtureClaimOperation)
        (some ((fixtureClaims true).declaredCapabilities.map (·.value))) fun _ => false) db₃ =
      db₄ := by
    rw [next_claimTaskWithCapabilities, hclaim₄]
  obtain ⟨a₄, ha₄⟩ : ∃ a, RecordedOn db₄ (fixtureClaims false) first a :=
    hnext₄ ▸ ha₃.next hc₃ _
  exact ⟨db₁, db₂, db₃, db₄, first, second, a₄, b₄, hfirstLease.created_next,
    hfirstLease.unrecorded, hfirstLease.claim, hnext₃, hclaim₄, ha₄, hb₄, hfirst, hsecond⟩

/-- Claims under one operation id: the fixture's, a repetition of it, and another node's. -/
def repeatedClaims : Fin 3 → JudgeClaim
  | 0 | 1 => fixtureClaims false
  | 2 => fixtureClaims true

/-- The fixture is created and leased by the first node, which repeats its claim; then another node
presents its operation id. -/
def repeatedMoves : List (Move (Fin 3) (AttemptId → Bool) {op : Operation // op.LooksUp}) :=
  [.other fixtureCreation, .call 0 (fun _ => false) .none, .call 0 (fun _ => false) .none,
    .call 1 (fun _ => false) .none, .call 2 (fun _ => false) .none]

/-- The operation id is new to the first claim. -/
private theorem FirstLease.replay {payload : List UInt8} {db₁ db₂ : Database} {first : TaskLease}
    (h : FirstLease payload db₁ db₂ first) : claimReplay (repeatedClaims 0) db₁ = .ok none :=
  claimReplay_eq_none.mpr h.unrecorded

/-- The first move creates the fixture. -/
private theorem FirstLease.start_next {payload : List UInt8} {db₁ db₂ : Database}
    {first : TaskLease} (h : FirstLease payload db₁ db₂ first) :
    (claimRace repeatedClaims).next (.other fixtureCreation) (claimRace repeatedClaims).start =
      ⟨db₁, fun _ => .waiting⟩ := by
  rw [claimRace_other, ← h.created_next]
  rfl

/-- The phases after the first node was leased the fixture, and two claims presented its id. -/
private theorem run_repeatedMoves {payload : List UInt8} {db₁ db₂ : Database} {first : TaskLease}
    (h : FirstLease payload db₁ db₂ first) {answer answer' : Except StoreError TaskLease}
    (hanswer : claimReplay (repeatedClaims 1) db₂ = answer.map some)
    (hanswer' : claimReplay (repeatedClaims 2) db₂ = answer'.map some) :
    ((claimRace repeatedClaims).run repeatedMoves).phase 0 = .answered (.ok first) ∧
      ((claimRace repeatedClaims).run repeatedMoves).phase 1 = .answered answer ∧
      ((claimRace repeatedClaims).run repeatedMoves).phase 2 = .answered answer' := by
  let waiting : Fin 3 → Race.Phase (Except StoreError TaskLease) := fun _ => .waiting
  let leased := Function.update (Function.update waiting 0 .writing) 0 (.answered (.ok first))
  have hcreated : (claimRace repeatedClaims).next (.other fixtureCreation)
      (claimRace repeatedClaims).start = ⟨db₁, waiting⟩ := h.start_next
  have hlooked : (claimRace repeatedClaims).next (.call 0 (fun _ => false) .none) ⟨db₁, waiting⟩ =
      ⟨db₁, Function.update waiting 0 .writing⟩ := claimRace_looked repeatedClaims rfl h.replay _
  have hwritten : (claimRace repeatedClaims).next (.call 0 (fun _ => false) .none)
      ⟨db₁, Function.update waiting 0 .writing⟩ = ⟨db₂, leased⟩ :=
    claimRace_written repeatedClaims rfl h.claim
  have hreplayed : (claimRace repeatedClaims).next (.call 1 (fun _ => false) .none) ⟨db₂, leased⟩ =
      ⟨db₂, Function.update leased 1 (.answered answer)⟩ :=
    claimRace_replayed repeatedClaims rfl hanswer _
  have hrefused : (claimRace repeatedClaims).next (.call 2 (fun _ => false) .none)
      ⟨db₂, Function.update leased 1 (.answered answer)⟩ =
        ⟨db₂, Function.update (Function.update leased 1 (.answered answer)) 2
          (.answered answer')⟩ :=
    claimRace_replayed repeatedClaims rfl hanswer' _
  have hrun : (claimRace repeatedClaims).run repeatedMoves = ⟨db₂, Function.update
      (Function.update leased 1 (.answered answer)) 2 (.answered answer')⟩ := by
    rw [Machine.run, repeatedMoves]
    simp only [Machine.runFrom_cons, Machine.runFrom_nil, hcreated, hlooked, hwritten, hreplayed,
      hrefused]
  rw [hrun]
  exact ⟨rfl, rfl, rfl⟩

/-- The node is told of its lease again, and the other node is told of the conflict. -/
theorem claims_kept_fixture : ClaimsKept repeatedClaims repeatedMoves ∧
    ∃ lease replayed,
      ((claimRace repeatedClaims).run repeatedMoves).phase 0 = .answered (.ok lease) ∧
      ((claimRace repeatedClaims).run repeatedMoves).phase 1 = .answered (.ok replayed) ∧
      replayed.request = lease.request ∧ replayed.leaseToken = lease.leaseToken ∧
      ((claimRace repeatedClaims).run repeatedMoves).phase 2 =
        .answered (.error .idempotencyConflict) := by
  obtain ⟨payload, db₁, db₂, first, h⟩ := exists_firstLease
  obtain ⟨hid, a, ha⟩ := h.recordedOn
  have hc := coupled_of_reachable h.reachable
  constructor
  · have hmeets : (claimRace repeatedClaims).Meets (Confirmed fun i => claimCall (repeatedClaims i))
        (claimRace repeatedClaims).start repeatedMoves := by
      refine ⟨nofun, ?_⟩
      rw [h.start_next]
      have hturns : [(0 : Fin 3), 1, 2].Nodup := by decide
      exact claimRace_sequential repeatedClaims hturns (fun _ _ => rfl) h.replay fun _ => false
    exact claims_kept (WireType.json_lossless _) hmeets
  · have hrepeats (i : Fin 3)
        (hid : (repeatedClaims i).operationId = (fixtureClaims false).operationId) :
        ∃ answer, claimReplay (repeatedClaims i) db₂ = answer.map some ∧
          Repeats db₂ (fixtureClaims false) first (repeatedClaims i) answer :=
      h.once.repeats hc ha hid
    obtain ⟨answer, hanswer, hrepeats₁⟩ := hrepeats 1 rfl
    obtain ⟨answer', hanswer', hrepeats₂⟩ := hrepeats 2 rfl
    have hleased : StillLeased db₂ first := by
      exact ⟨_, (congrArg _ hid).trans h.claimed.rewritten.triple'.attempt, rfl⟩
    obtain ⟨replayed, rfl, hrequest, htoken⟩ := hrepeats₁.leased rfl hleased
    obtain rfl := hrepeats₂.other (by decide +kernel)
    obtain ⟨hfirst, hagain, hother⟩ := run_repeatedMoves h hanswer hanswer'
    exact ⟨first, replayed, hfirst, hagain, hrequest, htoken, hother⟩

/-- Two nodes that look one operation id up before either of them claims are both leased an attempt
under it. -/
theorem claims_recorded_twice : ¬ClaimsKept fixtureClaims fixtureMoves := by
  obtain ⟨db₁, db₂, db₃, db₄, first, second, a, b, h₁, hnone, h₂, h₃, h₄, ha, hb, hfirst,
    hsecond⟩ := exists_two_leases
  have hrun : ((claimRace fixtureClaims).run fixtureMoves).shared = db₄ :=
    run_overtaken Bool.false_ne_true h₁ (claimReplay_eq_none.mpr hnone)
      (claimReplay_eq_none.mpr hnone) h₂ h₃ h₄
  intro hkept
  have hsame := hkept.once fixtureMoves (List.prefix_refl _) a
    (hrun ▸ Table.mem_of_find? ha.stored) b (hrun ▸ Table.mem_of_find? hb.stored) _ ha.operation
      hb.operation
  have hids : fixtureRequest.attemptId = fixtureNext.attemptId :=
    calc fixtureRequest.attemptId = first.request.attemptId := hfirst.symm
      _ = a.attemptId := (Table.key_of_find? ha.stored).symm
      _ = b.attemptId := hsame
      _ = second.request.attemptId := Table.key_of_find? hb.stored
      _ = fixtureNext.attemptId := hsecond
  exact absurd hids (by decide +kernel)

end Json

end OpenOJ
