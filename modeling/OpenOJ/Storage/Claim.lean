import OpenOJ.Storage.Creation

/-!
# What a claim takes

A claim selects among the ready tasks by creation time and attempt id. `Compatible` tasks are the
stored ready ones that ask for no more than was declared, and the oldest of them is `IsOldest`,
which is unique (`IsOldest.unique`). In a reachable store every ready task is the task of a queued
evaluation (`Coupled.exists_triple`), its rows were created in order and its request can be read; so
what is left to go wrong is that the rows of the selected task may not be rewritten at the claim's
time, because they were created later, or that the operation id is already recorded for the node
(`ClaimTask.Admits`).

* `Coupled.nextClaimable_eq_none`, `Coupled.next_of_isOldest`: what the query finds;
* `claim_leases`: where the claim is admitted, the oldest task is leased (`Leases`), and no other
  row is written;
* `claim_unavailable`: where it is not, the store is unavailable for it and stays as it was;
* `claim_noTask`: where nothing is compatible, there is no task.

`ClaimsOldest` is a claim as if only the queue decided, and `TakesOldest` one as the schema has it;
`takes_oldest` says that every claim from every reachable store is of the second kind, and
`aheadTask_unavailable` has a claim that is not of the first.
-/

namespace OpenOJ

open Outcome Relation

variable {db db' : Database}

/-! ### The oldest compatible task -/

/-- A stored ready task whose requirements are among the declared capabilities; without a
declaration every ready task is one. -/
structure Compatible (db : Database) (declared : Option (List String)) (t : TaskRow) :
    Prop where
  stored : db.tasks.find? t.attemptId = some t
  ready : t.state = .ready
  declared : ∀ capabilities ∈ declared, t.requiredCapabilities ⊆ capabilities

/-- The compatible task that is least by creation time and attempt id. -/
structure IsOldest (db : Database) (declared : Option (List String)) (t : TaskRow) : Prop where
  compatible : Compatible db declared t
  least : ∀ s, Compatible db declared s →
    position t.createdAtMs t.attemptId ≤ position s.createdAtMs s.attemptId

theorem declares_iff {declared : Option (List String)} {t : TaskRow} :
    declares declared t = true ↔
      ∀ capabilities ∈ declared, t.requiredCapabilities ⊆ capabilities := by
  cases declared with
  | none => simp [declares]
  | some capabilities => simp [declares, List.subset_def]

/-- Of two positions, one is not after the other. -/
theorem Position.le_of_not_lt {p q : Position} (h : ¬q < p) : p ≤ q := by
  have hbefore : ¬(q.timeMs < p.timeMs ∨ q.timeMs = p.timeMs ∧ q.attemptId < p.attemptId) := h
  rw [not_or, not_and] at hbefore
  obtain ⟨htime, hid⟩ := hbefore
  rcases Int.lt_or_eq_of_le (Int.not_lt.mp htime) with hlt | heq
  · exact .inl (.inl hlt)
  · have hle : p.attemptId ≤ q.attemptId := List.not_lt.mp (hid heq.symm)
    by_cases hids : p.attemptId < q.attemptId
    · exact .inl (.inr ⟨heq, hids⟩)
    · have hids' : p.attemptId = q.attemptId := List.le_antisymm hle (List.not_lt.mp hids)
      exact .inr (congrArg₂ Position.mk heq hids')

/-- Two positions that are each not after the other are one. -/
theorem Position.eq_of_le {p q : Position} (h : p ≤ q) (h' : q ≤ p) : p = q := by
  rcases h with h | h
  · rcases h' with h' | h'
    · exact absurd (h.trans h') (Position.Before.irrefl p)
    · exact h'.symm
  · exact h

/-- There is at most one oldest compatible task. -/
theorem IsOldest.unique {declared : Option (List String)} {t s : TaskRow}
    (ht : IsOldest db declared t) (hs : IsOldest db declared s) : t = s := by
  have heq := Position.eq_of_le (ht.least s hs.compatible) (hs.least t ht.compatible)
  have hid : t.attemptId = s.attemptId := by
    have hbytes : Text.bytes t.attemptId.value = Text.bytes s.attemptId.value :=
      congrArg Position.attemptId heq
    exact OpaqueId.ext (Text.bytes_injective hbytes)
  have hstored := hs.compatible.stored
  rw [← hid] at hstored
  exact Option.some.inj (ht.compatible.stored.symm.trans hstored)

/-! ### What a claim selects from -/

/-- **A ready task** is that of a queued evaluation and its queued current attempt. -/
theorem Coupled.exists_triple (hc : Coupled db) {t : TaskRow}
    (ht : db.tasks.find? t.attemptId = some t) (hready : t.state = .ready) :
    ∃ e a, Triple db e a t ∧ e.state = .queued ∧ a.state = .queued := by
  obtain ⟨b, hb⟩ := Option.isSome_iff_exists.mp (hc.attempted _ t ht)
  have hbid : b.attemptId = t.attemptId := Table.key_of_find? hb
  obtain ⟨e, he⟩ := Option.isSome_iff_exists.mp (hc.owned _ b hb)
  have heid : e.evaluationId = b.evaluationId := Table.key_of_find? he
  obtain ⟨a, t', hcoupled⟩ := hc.evaluations _ e he
  have howned : db.AttemptOf e.evaluationId b := ⟨hbid ▸ hb, heid.symm⟩
  by_cases hcurrent : b.attemptId = e.currentAttemptId
  · obtain rfl : t' = t := by
      have htask := hcoupled.triple.task
      rw [← hcurrent, hbid] at htask
      exact Option.some.inj (htask.symm.trans ht)
    have hphase := hcoupled.phase
    rw [hready] at hphase
    refine ⟨e, a, hcoupled.triple, ?_⟩
    generalize e.state = evaluationState, a.state = attemptState at hphase
    cases hphase
    exact ⟨rfl, rfl⟩
  · -- the task of a superseded attempt has expired
    obtain ⟨-, s, hs, hexpired⟩ := hcoupled.superseded b howned hcurrent
    rw [hbid, ht] at hs
    obtain rfl := Option.some.inj hs
    rw [hready] at hexpired
    cases hexpired

/-- With no row locked, a claim selects from the compatible tasks. -/
theorem Coupled.mem_claimable (hc : Coupled db) {declared : Option (List String)} {t : TaskRow} :
    (∃ a e, (t, a, e) ∈ claimable declared (fun _ => false) db) ↔ Compatible db declared t := by
  constructor
  · rintro ⟨a, e, hmem⟩
    obtain ⟨ht, -, -, -, hready, -, -, hdeclares, -⟩ := OpenOJ.mem_claimable.mp hmem
    exact ⟨ht, hready, declares_iff.mp hdeclares⟩
  · rintro ⟨ht, hready, hdeclared⟩
    obtain ⟨e, a, htriple, he, ha⟩ := hc.exists_triple ht hready
    exact ⟨a, e, htriple.mem_claimable he ha hready (declares_iff.mpr hdeclared) rfl⟩

/-- What a claim selects is the oldest compatible task. -/
theorem Coupled.isOldest_of_next (hc : Coupled db) {declared : Option (List String)}
    {t : TaskRow} {a : AttemptRow} {e : EvaluationRow}
    (h : nextClaimable declared (fun _ => false) db = some (t, a, e)) :
    IsOldest db declared t where
  compatible := hc.mem_claimable.mp ⟨a, e, List.argmin_mem h⟩
  least s hs := by
    obtain ⟨b, f, hmem⟩ := hc.mem_claimable.mpr hs
    exact Position.le_of_not_lt (List.not_lt_of_mem_argmin hmem h)

/-- A claim selects nothing exactly when no task is compatible. -/
theorem Coupled.nextClaimable_eq_none (hc : Coupled db) {declared : Option (List String)} :
    nextClaimable declared (fun _ => false) db = none ↔ ∀ t, ¬Compatible db declared t := by
  rw [nextClaimable, List.argmin_eq_none, List.eq_nil_iff_forall_not_mem]
  constructor
  · intro hnone t ht
    obtain ⟨a, e, hmem⟩ := hc.mem_claimable.mpr ht
    exact hnone _ hmem
  · rintro hnone ⟨t, a, e⟩ hmem
    exact hnone t (hc.mem_claimable.mp ⟨a, e, hmem⟩)

/-- Where a task is compatible, one of them is the oldest. -/
theorem Coupled.exists_isOldest (hc : Coupled db) {declared : Option (List String)}
    {t : TaskRow} (ht : Compatible db declared t) : ∃ t, IsOldest db declared t := by
  obtain ⟨a, e, hmem⟩ := hc.mem_claimable.mpr ht
  obtain ⟨⟨s, b, f⟩, hnext⟩ := exists_nextClaimable hmem
  exact ⟨s, hc.isOldest_of_next hnext⟩

/-- The oldest compatible task is the one a claim selects. -/
theorem Coupled.next_of_isOldest (hc : Coupled db) {declared : Option (List String)}
    {t : TaskRow} (ht : IsOldest db declared t) :
    ∃ a e, nextClaimable declared (fun _ => false) db = some (t, a, e) := by
  obtain ⟨a, e, hmem⟩ := hc.mem_claimable.mpr ht.compatible
  obtain ⟨⟨s, b, f⟩, hnext⟩ := exists_nextClaimable hmem
  obtain rfl := ht.unique (hc.isOldest_of_next hnext)
  exact ⟨b, f, hnext⟩

/-- The ready task of the only evaluation is the oldest one. -/
theorem Triple.isOldest {e : EvaluationRow} {a : AttemptRow} {t : TaskRow}
    (htriple : Triple db e a t) (hc : Coupled db) (hready : t.state = .ready)
    {declared : Option (List String)}
    (hdeclared : ∀ capabilities ∈ declared, t.requiredCapabilities ⊆ capabilities)
    (honly : ∀ f b s, Triple db f b s → f.evaluationId = e.evaluationId) :
    IsOldest db declared t := by
  have hid : t.attemptId = e.currentAttemptId := Table.key_of_find? htriple.task
  refine ⟨⟨hid ▸ htriple.task, hready, hdeclared⟩, fun s hs => ?_⟩
  obtain ⟨f, b, hf, -⟩ := hc.exists_triple hs.stored hs.ready
  obtain ⟨-, -, rfl⟩ := htriple.unique hf (honly f b s hf)
  exact le_refl _

/-! ### What a claim does with it -/

/-- A claim may rewrite the rows of the task it selected: they are not younger than the
claim's time, and the operation id is not recorded for the node. -/
structure ClaimTask.Admits (command : ClaimTask) (db : Database)
    (operationId : Option ClaimOperationId) (t : TaskRow) : Prop where
  created : t.createdAtMs ≤ command.now.value
  operation : NewOperation db command.nodeId operationId

/-- An accepted update of an attempt by a claim was admitted. -/
theorem admits_of_update {e : EvaluationRow} {a : AttemptRow} {t : TaskRow}
    {command : ClaimTask} {expiry : Int} {operationId : Option ClaimOperationId}
    (hc : Coupled db) (htimed : Timed db) (htriple : Triple db e a t) (hqueued : a.state = .queued)
    (h : db.updateAttempt e.currentAttemptId (fun a => a.claim command.nodeId command.leaseToken
      expiry operationId command.now.value) = .ok db') : command.Admits db operationId t := by
  obtain ⟨table, hupdate, -⟩ := bind_eq_ok.mp h
  obtain ⟨-, hcreated⟩ := htimed.created e a t htriple
  refine ⟨?_, ?_⟩
  · -- the row was checked when it was written
    have hvalid : (a.claim command.nodeId command.leaseToken expiry operationId
        command.now.value).Valid := Table.check_of_update hupdate htriple.attempt
    rw [hcreated]
    exact hvalid.timeBound.2.1
  · intro s hs hrecorded hsame
    have hne : s.attemptId ≠ e.currentAttemptId := by
      intro hid
      have hrow : db.attempts.find? s.attemptId = some s := Table.mem_rows.mp hs
      rw [hid] at hrow
      obtain rfl := Option.some.inj (hrow.symm.trans htriple.attempt)
      rw [((hc.tidy _ s htriple.attempt).queued hqueued).2.2.2] at hrecorded
      cases hrecorded
    have hapart : s.Apart (a.claim command.nodeId command.leaseToken expiry operationId
        command.now.value) := Table.apart_of_update hupdate htriple.attempt hs hne
    obtain ⟨id, hid⟩ := Option.isSome_iff_exists.mp hrecorded
    rcases hapart.claimOperation with hnone | hnone | hnode | hoperation
    · rw [hid] at hnone
      cases hnone
    · rw [hnone]
      rintro ⟨⟩
    · exact hnode
    · exact absurd hsame hoperation

section Claim

variable [Wire] {command : ClaimTask} {operationId : Option ClaimOperationId}
  {declared : Option (List String)} {expiresAt : UnixMillis}

omit command in
/-- The lookup of a judge node's claim finds nothing exactly when its operation id is not
recorded. -/
theorem claimReplay_eq_none {command : JudgeClaim} :
    claimReplay command db = .ok none ↔
      ∀ a ∈ db.attempts.rows, a.claimOperationId ≠ some command.operationId := by
  cases hfind : db.attempts.rows.find? fun a => a.claimOperationId = some command.operationId with
  | none =>
    refine iff_of_true (by rw [claimReplay, hfind]; rfl) fun a ha heq => ?_
    exact List.find?_eq_none.mp hfind a ha (decide_eq_true heq)
  | some row =>
    refine iff_of_false (fun h => ?_) fun h => ?_
    · -- the lookup of a recorded id ends in an error or in a lease
      rw [claimReplay, hfind] at h
      simp [bind_eq_ok, pure, Except.pure] at h
    · have hrecorded := List.find?_some hfind
      exact h row (List.mem_of_find?_eq_some hfind) (of_decide_eq_true hrecorded)

/-- The lease of a task: its three rows are the command's node's until the lease expires, the
answer carries the task's request, and no other row is written. -/
def Leases (db db' : Database) (command : ClaimTask) (operationId : Option ClaimOperationId)
    (t : TaskRow) (lease : TaskLease) : Prop :=
  ∃ e a, Granted command a lease ∧ Claimed db db' e a t command.nodeId command.leaseToken
    lease.expiresAt.value operationId command.now.value

/-- An admitted claim leases the oldest compatible task. -/
theorem claim_leases (hc : Coupled db) (hg : Legible db) (htimed : Timed db)
    (hexpires : command.now.checkedAdd command.leaseDuration = .ok expiresAt) {t : TaskRow}
    (ht : IsOldest db declared t) (hadmits : command.Admits db operationId t) :
    ∃ lease db', claimTaskWithCapabilities command operationId declared (fun _ => false) db =
      (.ok lease, db') ∧ Leases db db' command operationId t lease := by
  obtain ⟨a, e, hnext⟩ := hc.next_of_isOldest ht
  obtain ⟨htriple, -⟩ := hc.linked.triple_of_claimable (List.argmin_mem hnext)
  obtain ⟨hle, heq⟩ := htimed.created e a t htriple
  have ha : a.createdAtMs ≤ command.now.value := heq ▸ hadmits.created
  obtain ⟨lease, db', hclaim⟩ := claimTransaction_ok hc hg hnext hexpires (Int.le_trans hle ha) ha
    hadmits.created hadmits.operation
  obtain ⟨e', a', t', hnext', hgranted, hclaimed⟩ := claimTransaction_spec hc.linked hclaim
  obtain ⟨rfl, rfl, rfl⟩ : t' = t ∧ a' = a ∧ e' = e := by simpa using hnext'.symm.trans hnext
  refine ⟨lease, db', ?_, e', a', hgranted, hclaimed⟩
  rw [claimTaskWithCapabilities, hclaim, transact_ok]

/-- A claim that is not admitted is refused by the database. -/
theorem claim_unavailable (hc : Coupled db) (hg : Legible db) (htimed : Timed db)
    (hexpires : command.now.checkedAdd command.leaseDuration = .ok expiresAt) {t : TaskRow}
    (ht : IsOldest db declared t) (hadmits : ¬command.Admits db operationId t) :
    claimTaskWithCapabilities command operationId declared (fun _ => false) db =
      (.error .unavailable, db) := by
  obtain ⟨a, e, hnext⟩ := hc.next_of_isOldest ht
  obtain ⟨htriple, hcurrent, -, hqueued, -⟩ :=
    hc.linked.triple_of_claimable (List.argmin_mem hnext)
  obtain ⟨request, hdecode, hnames, -⟩ := hg _ a htriple.attempt
  obtain ⟨violation, hrefused⟩ : ∃ violation, db.updateAttempt t.attemptId (fun a =>
      a.claim command.nodeId command.leaseToken expiresAt.value operationId command.now.value) =
        .error violation := by
    rw [← hcurrent]
    rcases ok_or_error (db.updateAttempt e.currentAttemptId fun a => a.claim command.nodeId
      command.leaseToken expiresAt.value operationId command.now.value) with ⟨db', hok⟩ | hrefused
    · exact absurd (admits_of_update hc htimed htriple hqueued hok) hadmits
    · exact hrefused
  have hclaim : claimTransaction command operationId declared (fun _ => false) db =
      .error .unavailable := by
    simp only [claimTransaction, hexpires, reportAs_ok, ok_bind, toI64_unixMillis, orRefuse_some,
      hnext, hdecode, refuseIf_neg (not_not.mpr hnames), hrefused, reportAs_error, error_bind]
  rw [claimTaskWithCapabilities, hclaim, transact_error]

/-- Where no task is compatible, a claim is told so. -/
theorem claim_noTask (hc : Coupled db)
    (hexpires : command.now.checkedAdd command.leaseDuration = .ok expiresAt)
    (hnone : ∀ t, ¬Compatible db declared t) :
    claimTaskWithCapabilities command operationId declared (fun _ => false) db =
      (.error .noTaskAvailable, db) := by
  have hclaim : claimTransaction command operationId declared (fun _ => false) db =
      .error .noTaskAvailable := by
    simp only [claimTransaction, hexpires, reportAs_ok, ok_bind, toI64_unixMillis, orRefuse_some,
      hc.nextClaimable_eq_none.mpr hnone, orRefuse_none, error_bind]
  rw [claimTaskWithCapabilities, hclaim, transact_error]

/-! ### The order of the queue -/

/-- A claim as if only the queue decided: the oldest compatible task is leased, and nothing but
the lack of one is ever answered instead. -/
structure ClaimsOldest (db : Database) (command : ClaimTask)
    (operationId : Option ClaimOperationId) (declared : Option (List String)) : Prop where
  leased : ∀ t, IsOldest db declared t → ∃ lease db',
    claimTaskWithCapabilities command operationId declared (fun _ => false) db =
      (.ok lease, db') ∧ Leases db db' command operationId t lease
  noTask : (claimTaskWithCapabilities command operationId declared (fun _ => false) db).1 =
    .error .noTaskAvailable ↔ ∀ t, ¬Compatible db declared t
  refused : ∀ error, (claimTaskWithCapabilities command operationId declared (fun _ => false)
    db).1 = .error error → error = .noTaskAvailable

/-- A claim as the schema has it: the oldest compatible task is leased when the claim is
admitted for it, and otherwise the store is unavailable for the claim and stays as it was. -/
structure TakesOldest (db : Database) (command : ClaimTask)
    (operationId : Option ClaimOperationId) (declared : Option (List String)) : Prop where
  oldest : (∃ t, Compatible db declared t) → ∃! t, IsOldest db declared t
  leased : ∀ t, IsOldest db declared t → command.Admits db operationId t → ∃ lease db',
    claimTaskWithCapabilities command operationId declared (fun _ => false) db =
      (.ok lease, db') ∧ Leases db db' command operationId t lease
  unavailable : ∀ t, IsOldest db declared t → ¬command.Admits db operationId t →
    claimTaskWithCapabilities command operationId declared (fun _ => false) db =
      (.error .unavailable, db)
  noTask : (claimTaskWithCapabilities command operationId declared (fun _ => false) db).1 =
    .error .noTaskAvailable ↔ ∀ t, ¬Compatible db declared t
  unchanged : (∀ t, ¬Compatible db declared t) →
    (claimTaskWithCapabilities command operationId declared (fun _ => false) db).2 = db

/-- **A claim takes the oldest compatible task**, from every reachable store. -/
theorem takes_oldest (hl : LosslessRequests) (hr : store.Reachable db) (command : ClaimTask)
    (operationId : Option ClaimOperationId) (declared : Option (List String))
    (hexpires : ∃ expiresAt, command.now.checkedAdd command.leaseDuration = .ok expiresAt) :
    TakesOldest db command operationId declared := by
  obtain ⟨expiresAt, hexpires⟩ := hexpires
  have hc := coupled_of_reachable hr
  have hg := legible_of_reachable hl hr
  have htimed := timed_of_reachable hr
  refine
    { oldest := ?_
      leased := fun t ht hadmits => claim_leases hc hg htimed hexpires ht hadmits
      unavailable := fun t ht hadmits => claim_unavailable hc hg htimed hexpires ht hadmits
      noTask := ⟨?_, fun hnone => congrArg Prod.fst (claim_noTask hc hexpires hnone)⟩
      unchanged := fun hnone => congrArg Prod.snd (claim_noTask hc hexpires hnone) }
  · rintro ⟨t, ht⟩
    obtain ⟨oldest, holdest⟩ := hc.exists_isOldest ht
    exact ⟨oldest, holdest, fun s hs => hs.unique holdest⟩
  · -- with a compatible task there is an oldest one, and it is leased or refused
    intro hanswer t ht
    obtain ⟨oldest, holdest⟩ := hc.exists_isOldest ht
    by_cases hadmits : command.Admits db operationId oldest
    · obtain ⟨lease, db', hclaim, -⟩ := claim_leases hc hg htimed hexpires holdest hadmits
      rw [hclaim] at hanswer
      cases hanswer
    · rw [claim_unavailable hc hg htimed hexpires holdest hadmits] at hanswer
      cases hanswer

end Claim

section Json

attribute [local instance] jsonWire

/-- The fixture's task is the oldest one of the store it was created in, for a claim that declares
what it requires. -/
theorem exists_oldest_fixture (createdAt : UnixMillis) {declared : Option (List String)}
    (hdeclared : ∀ capabilities ∈ declared,
      (taskRow fixtureRequest createdAt.value).requiredCapabilities ⊆ capabilities) :
    ∃ payload db, store.run [.createEvaluation ⟨fixtureRequest, createdAt⟩] = db ∧
      encodeEvaluationRequest fixtureRequest = .ok payload ∧
        Created .empty db fixtureRequest payload createdAt.value ∧
          IsOldest db declared (taskRow fixtureRequest createdAt.value) ∧
            ∀ s ∈ db.attempts.rows, s.claimOperationId = none := by
  obtain ⟨payload, db, hrun, hpayload, hcreated⟩ :=
    exists_created fixtureRequest fixtureParts_mediaType (by decide +kernel) createdAt
  refine ⟨payload, db, hrun, hpayload, hcreated, ?_, ?_⟩
  · have hc := coupled_of_reachable ⟨_, hrun⟩
    refine hcreated.triple.isOldest hc rfl hdeclared fun f b s hf => ?_
    rcases hcreated.triple_cases hf with ⟨rfl, -, -⟩ | hf
    · rfl
    · cases hf.evaluation
  · intro s hs
    have hrow : db.attempts.find? s.attemptId = some s := Table.mem_rows.mp hs
    rw [hcreated.attempts] at hrow
    by_cases hid : s.attemptId = fixtureRequest.attemptId
    · rw [hid, Function.update_self] at hrow
      obtain rfl := Option.some.inj hrow
      rfl
    · rw [Function.update_of_ne hid] at hrow
      cases hrow

/-- The fixture's task, created at zero, is what a claim at a thousand leases. -/
theorem takes_oldest_fixture :
    ∃ db lease db', store.Reachable db ∧
      claimTaskWithCapabilities fixtureClaim none none (fun _ => false) db = (.ok lease, db') ∧
        ∃ t, IsOldest db none t ∧ Leases db db' fixtureClaim none t lease := by
  obtain ⟨-, db, hrun, -, -, ht, hnone⟩ : ∃ payload db, store.run [_] = db ∧ _ ∧
      Created .empty db fixtureRequest payload 0 ∧ IsOldest db none _ ∧ _ :=
    exists_oldest_fixture ⟨0, by decide⟩ (by simp)
  have hr : store.Reachable db := ⟨_, hrun⟩
  have hexpires : ∃ expiresAt,
      fixtureClaim.now.checkedAdd fixtureClaim.leaseDuration = .ok expiresAt :=
    ⟨⟨2000, by decide⟩, UnixMillis.checkedAdd_eq_ok.mpr rfl⟩
  have hadmits : fixtureClaim.Admits db none (taskRow fixtureRequest 0) := by
    refine ⟨by decide, fun s hs hrecorded => ?_⟩
    rw [hnone s hs] at hrecorded
    cases hrecorded
  obtain ⟨lease, db', hclaim, hleases⟩ :=
    (takes_oldest (WireType.json_lossless _) hr fixtureClaim none none hexpires).leased _ ht hadmits
  exact ⟨db, lease, db', hr, hclaim, _, ht, hleases⟩

/-- A task that was created by a clock ahead of the claim's is neither leased nor reported as
missing. -/
theorem aheadTask_unavailable :
    ∃ db t, store.Reachable db ∧ IsOldest db none t ∧
      claimTaskWithCapabilities fixtureClaim none none (fun _ => false) db =
        (.error .unavailable, db) ∧ ¬ClaimsOldest db fixtureClaim none none := by
  obtain ⟨-, db, hrun, -, -, ht, -⟩ : ∃ payload db, store.run [_] = db ∧ _ ∧
      Created .empty db fixtureRequest payload _ ∧ IsOldest db none _ ∧ _ :=
    exists_oldest_fixture fixtureLate (by simp)
  have hr : store.Reachable db := ⟨_, hrun⟩
  have hexpires : fixtureClaim.now.checkedAdd fixtureClaim.leaseDuration = .ok ⟨2000, by decide⟩ :=
    UnixMillis.checkedAdd_eq_ok.mpr rfl
  have hadmits : ¬fixtureClaim.Admits db none (taskRow fixtureRequest fixtureLate.value) :=
    fun h => absurd h.created (by decide)
  have hclaim := claim_unavailable (coupled_of_reachable hr)
    (legible_of_reachable (WireType.json_lossless _) hr) (timed_of_reachable hr) hexpires ht hadmits
  refine ⟨db, _, hr, ht, hclaim, fun hclaims => ?_⟩
  have herror := hclaims.refused .unavailable (congrArg Prod.fst hclaim)
  cases herror

end Json
end OpenOJ
