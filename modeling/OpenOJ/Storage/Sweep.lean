import OpenOJ.Storage.Creation

/-!
# The recovery sweep

A sweep with fresh identifiers (`FreshDraws`) and no other writer replaces exactly the attempts
whose leases have expired, one at a time.

* `retryExpired_ok`: a retry succeeds for an expired attempt and a new next request
  (`IsNextRequest`);
* `mem_expired_superseded`: each replacement takes one evaluation out of the expired ones and leaves
  the others in, so that the loop ends after as many iterations as there are;
* `recoverLoop_complete`: the loop is complete while no expired attempt has the last number and the
  count does not saturate;
* `sweepCompletes_iff`: so a sweep recovers all of them, and counts them (`SweepCompletes`), exactly
  when every expired attempt has a next number and their count fits the answer. It stops early at an
  attempt numbered `u32::MAX`, which has no next one (`recoverExpired_stopped`).

`Swept` says what such a sweep leaves: nothing expired, each expired evaluation queued again with
its next attempt (`Requeued`), and all others as they were.

With a run in which an evaluation was claimed, abandoned and retried (`exists_retried_fixture`), the
last section states the coupling invariant of all reachable databases (`evaluation_coupled`).
-/

namespace OpenOJ

open Outcome Relation

variable {db db' : Database} {now : Int}

/-! ### The expired attempts -/

theorem mem_expired {e : EvaluationRow} {a : AttemptRow} :
    (e, a) ∈ expired now db ↔
      db.current? e.evaluationId = some (e, a) ∧ e.state = .leased ∧ a.state = .leased ∧
        ∃ expiry, a.leaseExpiresAtMs = some expiry ∧ expiry < now := by
  simp only [expired, List.bind_eq_flatMap, List.mem_flatMap, Option.mem_toList,
    Database.current?_eq_some]
  constructor
  · rintro ⟨e', he, a', ha, h⟩
    split at h
    · rename_i hguard
      obtain ⟨rfl, rfl⟩ : e = e' ∧ a = a' := by simpa using h
      obtain ⟨hleased, hleased', hexpiry⟩ := hguard
      rw [Option.any_eq_true_iff_get] at hexpiry
      obtain ⟨hsome, hlt⟩ := hexpiry
      exact ⟨⟨Table.mem_rows.mp he, ha⟩, hleased, hleased', _, (Option.some_get hsome).symm,
        by simpa using hlt⟩
    · cases h
  · rintro ⟨⟨he, ha⟩, hleased, hleased', expiry, hexpiry, hlt⟩
    refine ⟨e, Table.mem_of_find? he, a, ha, ?_⟩
    rw [if_pos ⟨hleased, hleased', by simp [hexpiry, hlt]⟩]
    exact List.mem_singleton.mpr rfl

/-- No row is listed twice. -/
theorem nodup_expired (now : Int) (db : Database) : (expired now db).Nodup := by
  have hrows : db.evaluations.rows.Nodup :=
    db.evaluations.apart.imp fun h heq => Relation.apart_key h (congrArg _ heq)
  have hmem : ∀ {e : EvaluationRow} {row}, row ∈ (do
      let a ← (db.attempts.find? e.currentAttemptId).toList
      if e.state = .leased ∧ a.state = .leased ∧ a.leaseExpiresAtMs.any (· < now) then [(e, a)]
      else [] : List (EvaluationRow × AttemptRow)) → row.1 = e := by
    intro e row h
    simp only [List.bind_eq_flatMap, List.mem_flatMap] at h
    obtain ⟨a, -, h⟩ := h
    split at h
    · exact congrArg Prod.fst (List.mem_singleton.mp h)
    · cases h
  rw [expired, List.bind_eq_flatMap, List.nodup_flatMap]
  refine ⟨fun e he => ?_, hrows.imp fun hne row hrow hrow' => ?_⟩
  · cases db.attempts.find? e.currentAttemptId with
    | none => exact List.nodup_nil
    | some a =>
      simp only [Option.toList_some, List.bind_eq_flatMap, List.flatMap_cons, List.flatMap_nil,
        List.append_nil]
      split
      · exact List.nodup_singleton _
      · exact List.nodup_nil
  · exact hne ((hmem hrow).symm.trans (hmem hrow'))

/-- In a coupled database, the expired attempts are the leased current ones whose leases end
before `now`. -/
theorem Coupled.mem_expired (hc : Coupled db) {e : EvaluationRow} {a : AttemptRow} :
    (e, a) ∈ expired now db ↔
      (∃ t, Triple db e a t) ∧ e.state = .leased ∧
        ∃ expiry, a.leaseExpiresAtMs = some expiry ∧ expiry < now := by
  rw [OpenOJ.mem_expired]
  constructor
  · rintro ⟨hcurrent, hleased, -, hexpiry⟩
    obtain ⟨-, t, hcoupled⟩ := hc.current hcurrent
    exact ⟨⟨t, hcoupled.triple⟩, hleased, hexpiry⟩
  · rintro ⟨⟨t, htriple⟩, hleased, hexpiry⟩
    exact ⟨htriple.current?, hleased, (hc.of_triple htriple).attempt_leased hleased, hexpiry⟩

section Replaced

variable {e : EvaluationRow} {a : AttemptRow} {t : TaskRow} {request : EvaluationRequest}
  {payload : List UInt8} {at' : Int}

/-- **Progress**: replacing an attempt takes its evaluation out of the expired ones and leaves
the others in. -/
theorem mem_expired_superseded (hc : Coupled db)
    (h : Superseded db db' e a t request payload at') {f : EvaluationRow} {b : AttemptRow} :
    (f, b) ∈ expired now db' ↔ (f, b) ∈ expired now db ∧ f.evaluationId ≠ e.evaluationId := by
  rw [hc.mem_expired, (hc.superseded h).mem_expired]
  constructor
  · rintro ⟨⟨s, hf⟩, hleased, hexpiry⟩
    rcases h.triple_cases hf with ⟨rfl, -, -⟩ | hf'
    · cases hleased
    · refine ⟨⟨⟨s, hf'⟩, hleased, hexpiry⟩, fun hid => ?_⟩
      obtain ⟨rfl, -, -⟩ := h.triple'.unique hf hid
      cases hleased
  · rintro ⟨⟨⟨s, hf⟩, hleased, hexpiry⟩, hne⟩
    exact ⟨⟨s, (h.sameRows hne).triple hf⟩, hleased, hexpiry⟩

/-- One fewer attempt is expired after each replacement. -/
theorem length_expired_superseded (hc : Coupled db)
    (h : Superseded db db' e a t request payload at') (hmem : (e, a) ∈ expired now db) :
    (expired now db).length = (expired now db').length + 1 := by
  have hperm : (expired now db').Perm ((expired now db).erase (e, a)) := by
    refine (List.perm_ext_iff_of_nodup (nodup_expired _ _) ((nodup_expired _ _).erase _)).mpr ?_
    rintro ⟨f, b⟩
    rw [mem_expired_superseded hc h, (nodup_expired now db).mem_erase_iff, and_comm]
    refine and_congr_left fun hf => not_congr ?_
    obtain ⟨⟨s, hftriple⟩, -⟩ := hc.mem_expired.mp hf
    constructor
    · intro hid
      obtain ⟨rfl, rfl, -⟩ := h.triple.unique hftriple hid
      rfl
    · rintro heq
      rw [(Prod.mk.inj heq).1]
  rw [hperm.length_eq, List.length_erase_of_mem hmem]
  have := List.length_pos_of_mem hmem
  omega

end Replaced

/-! ### One replacement -/

section Sweep

variable [Wire]

/-- The request of the attempt after a given one: the same but for the attempt. -/
def IsNextRequest (current next : EvaluationRequest) (attemptId : AttemptId)
    (key : IdempotencyKey) : Prop :=
  next.toEvaluationRequestParts =
    { current.toEvaluationRequestParts with
      idempotencyKey := key
      attemptId := attemptId
      attemptNumber := current.attemptNumber + 1 }

omit [Wire] in
theorem IsNextRequest.sameSemantics {current next : EvaluationRequest} {attemptId : AttemptId}
    {key : IdempotencyKey} (h : IsNextRequest current next attemptId key) :
    sameEvaluationSemantics current next = true := by
  unfold IsNextRequest at h
  simp [sameEvaluationSemantics, h]

/-- What the next request of a stored attempt brings to its replacement. -/
theorem IsNextRequest.replaceable {e : EvaluationRow} {a : AttemptRow} {t : TaskRow}
    {current next : EvaluationRequest} {attemptId : AttemptId} {key : IdempotencyKey}
    {payload : List UInt8} (h : IsNextRequest current next attemptId key)
    (hl : LosslessRequests) (htriple : Triple db e a t)
    (hnames : current.Names a)
    (hcapabilities : t.requiredCapabilities = current.requiredCapabilities.map (·.value))
    (hpayload : encodeEvaluationRequest next = .ok payload)
    (hattempt : db.attempts.find? attemptId = none)
    (hkey : ∀ s ∈ db.attempts.rows, s.attemptIdempotencyKey ≠ key) :
    Replaceable db e a t next payload := by
  unfold IsNextRequest at h
  exact
    { evaluationId := by rw [h]; exact hnames.1.trans htriple.owned
      number := by rw [h, ← hnames.2.2]; rfl
      payloadBound := ⟨encode_ne_nil hl hpayload, length_of_encode hpayload⟩
      capabilities := by rw [h]; exact hcapabilities.symm
      newAttempt := by rw [h]; exact hattempt
      newKey := by rw [h]; exact hkey }

omit [Wire] in
/-- A new key is not found. -/
theorem retryLookup_new {key : IdempotencyKey}
    (h : ∀ a ∈ db.attempts.rows, a.attemptIdempotencyKey ≠ key) (payload : List UInt8) :
    retryLookup key payload db = .ok none := by
  unfold retryLookup
  have hnone : db.attempts.rows.find? (fun a => a.attemptIdempotencyKey = key) = none := by
    simpa using h
  rw [hnone]
  rfl

/-- **A retry succeeds** for an expired attempt and a request that may replace it. -/
theorem retryExpired_of_replaceable (hl : LosslessRequests) (hr : store.Reachable db)
    (command : RetryExpired) {e : EvaluationRow} {a : AttemptRow} {t : TaskRow}
    (htriple : Triple db e a t) (hmem : (e, a) ∈ expired command.now.value db)
    {current : EvaluationRequest} (hdecode : decodeEvaluationRequest a.requestPayload = .ok current)
    (hsame : sameEvaluationSemantics current command.request = true) {payload : List UInt8}
    (hpayload : encodeEvaluationRequest command.request = .ok payload)
    (hreplaceable : Replaceable db e a t command.request payload) :
    ∃ db', Superseded db db' e a t command.request payload command.now.value ∧
      retryExpired command db =
        (.ok (snapshotOf (e.requeue command.request.attemptId command.now.value)
          (attemptRow command.request payload command.now.value)), db') := by
  have hc := coupled_of_reachable hr
  obtain ⟨hcurrent, hleased, hleased', expiry, hexpiry, hlt⟩ := mem_expired.mp hmem
  -- rows of an expired lease were written before now
  obtain ⟨he, ha, ht⟩ := (timed_of_reachable hr).created_lt htriple hleased' hexpiry hlt
  obtain ⟨db', hreplace⟩ := replaceAttempt_ok hc htriple (inTimeRange_unixMillis command.now)
    (Int.le_of_lt he) (Int.le_of_lt ha) (Int.le_of_lt ht) hreplaceable
  have hlookup := retryLookup_new hreplaceable.newKey payload
  have h := replaceAttempt_spec htriple hleased hleased' hexpiry hlt hreplaceable.evaluationId
    hreplaceable.number hreplace
  have htransaction : retryTransaction command db = .ok (command.request.evaluationId, db') := by
    have hstates : ¬(e.state ≠ .leased ∨ a.state ≠ .leased) := by simp [hleased, hleased']
    simp only [retryTransaction, toI64_unixMillis, orRefuse_some, ok_bind, hpayload, reportAs_ok,
      hlookup, retryWrite, hreplaceable.evaluationId, hcurrent, refuseIf_neg hstates, hexpiry,
      refuseIf_neg (Int.not_le.mpr hlt), refuseIf_neg (not_not.mpr hreplaceable.number), hdecode,
      hsame, Bool.true_eq_false, refuseIf_neg not_false, hreplace,
      (hc.superseded h).linked.commit_ok]
    rfl
  have hretry : retryExpired command db =
      (evaluationStatus db' command.request.evaluationId, db') := by
    rw [retryExpired, htransaction, transact_ok]
  have hr' : store.Reachable db' := by
    have := hr.next (.retryExpired command)
    rwa [next_retryExpired, hretry] at this
  have hstatus := evaluationStatus_ok (legible_of_reachable hl hr') h.triple'
  refine ⟨db', h, ?_⟩
  rw [hretry, hreplaceable.evaluationId]
  exact congrArg (fun answer => (answer, db')) hstatus

/-- **A retry succeeds** for an expired attempt and a new next request. -/
theorem retryExpired_ok (hl : LosslessRequests) (hr : store.Reachable db) {now : UnixMillis}
    {e : EvaluationRow} {a : AttemptRow} {t : TaskRow} (htriple : Triple db e a t)
    (hmem : (e, a) ∈ expired now.value db) {current next : EvaluationRequest}
    {attemptId : AttemptId} {key : IdempotencyKey}
    (hdecode : decodeEvaluationRequest a.requestPayload = .ok current)
    (hnext : IsNextRequest current next attemptId key)
    (hattempt : db.attempts.find? attemptId = none)
    (hkey : ∀ s ∈ db.attempts.rows, s.attemptIdempotencyKey ≠ key) :
    ∃ payload snapshot db', encodeEvaluationRequest next = .ok payload ∧
      retryExpired ⟨next, now⟩ db = (.ok snapshot, db') ∧
        Superseded db db' e a t next payload now.value := by
  obtain ⟨request, hdecode', hnames, hcapabilities⟩ :=
    legible_of_reachable hl hr _ a htriple.attempt
  obtain rfl := Except.ok.inj (hdecode'.symm.trans hdecode)
  have hmedia : next.MediaTypeAccepted := by
    have := mediaTypeAccepted_of_decode hdecode
    unfold EvaluationRequest.MediaTypeAccepted IsNextRequest at *
    rw [hnext]
    exact this
  obtain ⟨payload, hpayload⟩ := exists_encode hl hmedia
  have hreplaceable := hnext.replaceable hl htriple hnames (hcapabilities t htriple.task)
    hpayload hattempt hkey
  obtain ⟨db', hsuperseded, hretry⟩ := retryExpired_of_replaceable hl hr ⟨next, now⟩
    htriple hmem hdecode hnext.sameSemantics hpayload hreplaceable
  exact ⟨payload, _, db', hpayload, hretry, hsuperseded⟩

/-! ### What a sweep leaves -/

/-- An evaluation was moved from an attempt to a new, queued one with the next number, whose
request is the same but for the attempt. -/
structure Requeued (db db' : Database) (e : EvaluationRow) (a : AttemptRow) (now : Int)
    (current next : EvaluationRequest) (payload : List UInt8) (attemptId : AttemptId)
    (key : IdempotencyKey) : Prop where
  decodeCurrent : decodeEvaluationRequest a.requestPayload = .ok current
  decodeNext : decodeEvaluationRequest payload = .ok next
  isNext : IsNextRequest current next attemptId key
  number : (next.attemptNumber : Int) = a.attemptNumber + 1
  newAttempt : db.attempts.find? attemptId = none
  triple : Triple db' (e.requeue attemptId now) (attemptRow next payload now) (taskRow next now)

/-- What a complete sweep leaves: no expired attempt, every evaluation that had one requeued,
and the rows of all others as they were. -/
structure Swept (now : Int) (db db' : Database) : Prop where
  none_left : expired now db' = []
  requeued : ∀ e a, (e, a) ∈ expired now db →
    ∃ current next payload attemptId key,
      Requeued db db' e a now current next payload attemptId key
  others : ∀ id, (∀ e a, (e, a) ∈ expired now db → e.evaluationId ≠ id) → SameRows id db db'

/-- The draws of a sweep from one on give, for each of `n` replacements, an attempt id and an
idempotency key that are not in use. -/
def FreshDraws (entropy : Entropy) (draws n : Nat) (db : Database) : Prop :=
  ∃ (ids : Nat → AttemptId) (keys : Nat → IdempotencyKey), ∀ i < n,
    nextAttemptId (entropy (draws + 2 * i)) = .ok (ids i) ∧
      nextIdempotencyKey (entropy (draws + 2 * i + 1)) = .ok (keys i) ∧
        db.attempts.find? (ids i) = none ∧
          (∀ s ∈ db.attempts.rows, s.attemptIdempotencyKey ≠ keys i) ∧
            ∀ j < i, ids j ≠ ids i ∧ keys j ≠ keys i

omit [Wire] in
/-- After a replacement that used the first two draws, the others are still fresh. -/
private theorem FreshDraws.tail {entropy : Entropy} {draws n : Nat}
    {e : EvaluationRow} {a : AttemptRow} {t : TaskRow} {request : EvaluationRequest}
    {payload : List UInt8} {ids : Nat → AttemptId} {keys : Nat → IdempotencyKey}
    (hfresh : ∀ i < n + 1,
      nextAttemptId (entropy (draws + 2 * i)) = .ok (ids i) ∧
        nextIdempotencyKey (entropy (draws + 2 * i + 1)) = .ok (keys i) ∧
          db.attempts.find? (ids i) = none ∧
            (∀ s ∈ db.attempts.rows, s.attemptIdempotencyKey ≠ keys i) ∧
              ∀ j < i, ids j ≠ ids i ∧ keys j ≠ keys i)
    (h : Superseded db db' e a t request payload now) (hid : request.attemptId = ids 0)
    (hkey : request.idempotencyKey = keys 0) : FreshDraws entropy (draws + 2) n db' := by
  refine ⟨fun i => ids (i + 1), fun i => keys (i + 1), fun i hi => ?_⟩
  obtain ⟨hnextId, hnextKey, hnew, hnewKey, hdistinct⟩ := hfresh (i + 1) (by omega)
  obtain ⟨hids, hkeys⟩ := hdistinct 0 (by omega)
  refine ⟨?_, ?_, ?_, ?_, fun j hj => hdistinct (j + 1) (by omega)⟩
  · rw [show draws + 2 + 2 * i = draws + 2 * (i + 1) by omega, hnextId]
  · rw [show draws + 2 + 2 * i + 1 = draws + 2 * (i + 1) + 1 by omega, hnextKey]
  · have hcurrent : ids (i + 1) ≠ e.currentAttemptId := by
      intro heq
      rw [heq, h.triple.attempt] at hnew
      cases hnew
    rw [h.attempts, Function.update_of_ne (hid ▸ hids.symm), Function.update_of_ne hcurrent, hnew]
  · intro s hs heq
    have hs' := Database.attemptOf_of_find? (Table.mem_rows.mp hs)
    rcases h.attemptOf.mp hs' with ⟨rfl, -⟩ | ⟨rfl, -⟩ | ⟨-, hs⟩
    · exact hkeys (hkey.symm.trans heq)
    · exact hnewKey a (Table.mem_of_find? h.triple.attempt) heq
    · exact hnewKey s (Table.mem_of_find? hs.1) heq

/-- The selected row's next request, from fresh draws. -/
private theorem nextRequest_ok {attemptDraw keyDraw : Option Draw} {a : AttemptRow}
    {current : EvaluationRequest} {attemptId : AttemptId} {key : IdempotencyKey}
    (hdecode : decodeEvaluationRequest a.requestPayload = .ok current)
    (hnumber : current.attemptNumber < u32Max)
    (hid : nextAttemptId attemptDraw = .ok attemptId)
    (hkey : nextIdempotencyKey keyDraw = .ok key) :
    ∃ next, nextRequest attemptDraw keyDraw a = .ok next ∧
      IsNextRequest current next attemptId key := by
  obtain ⟨next, hnext⟩ := EvaluationRequest.exists_withNextAttempt hnumber attemptId key
  refine ⟨next, ?_, EvaluationRequest.withNextAttempt_eq_ok.mp hnext⟩
  simp only [nextRequest, hdecode, reportAs_ok, ok_bind, hid, hkey, hnext]

/-- A replacement followed by a complete sweep is a complete sweep. -/
private theorem swept_of_superseded {db₁ db₂ : Database} {e : EvaluationRow} {a : AttemptRow}
    {t : TaskRow} {current next : EvaluationRequest} {payload : List UInt8}
    {attemptId : AttemptId} {key : IdempotencyKey} (hc : Coupled db)
    (h : Superseded db db₁ e a t next payload now) (hmem : (e, a) ∈ expired now db)
    (hid : next.attemptId = attemptId)
    (hcurrent : decodeEvaluationRequest a.requestPayload = .ok current)
    (hnext : decodeEvaluationRequest payload = .ok next)
    (hisNext : IsNextRequest current next attemptId key) (hrest : Swept now db₁ db₂) :
    Swept now db db₂ where
  none_left := hrest.none_left
  requeued f b hf := by
    by_cases hne : f.evaluationId = e.evaluationId
    · -- this attempt: the rest of the sweep leaves its evaluation alone
      obtain ⟨⟨s, hftriple⟩, -⟩ := hc.mem_expired.mp hf
      obtain ⟨rfl, rfl, rfl⟩ := h.triple.unique hftriple hne
      have hsame : SameRows f.evaluationId db₁ db₂ := by
        refine hrest.others _ fun g c hg heq => ?_
        exact ((mem_expired_superseded hc h).mp hg).2 heq
      exact ⟨current, next, payload, attemptId, key,
        { decodeCurrent := hcurrent
          decodeNext := hnext
          isNext := hisNext
          number := h.number
          newAttempt := hid ▸ h.newAttempt
          triple := hid ▸ SameRows.triple hsame h.triple' }⟩
    · -- another one: its new id was unused before this replacement as well
      obtain ⟨current', next', payload', attemptId', key', hrequeued⟩ :=
        hrest.requeued f b ((mem_expired_superseded hc h).mpr ⟨hf, hne⟩)
      refine ⟨current', next', payload', attemptId', key', { hrequeued with newAttempt := ?_ }⟩
      have hnew := hrequeued.newAttempt
      rw [h.attempts] at hnew
      by_cases hattempt : attemptId' = next.attemptId
      · rw [hattempt, Function.update_self] at hnew
        cases hnew
      · rw [Function.update_of_ne hattempt] at hnew
        by_cases hold : attemptId' = e.currentAttemptId
        · rw [hold, Function.update_self] at hnew
          cases hnew
        · rwa [Function.update_of_ne hold] at hnew
  others id hid := by
    refine (h.sameRows (hid e a hmem).symm).trans (hrest.others id fun f b hf => ?_)
    exact hid f b ((mem_expired_superseded hc h).mp hf).1

/-- **The loop is complete** while no expired attempt has the last number and the count does
not saturate: it takes as many iterations as there are expired attempts, and one more. -/
theorem recoverLoop_complete (hl : LosslessRequests) {now : UnixMillis} {entropy : Entropy}
    (n : Nat) : ∀ (db : Database) (draws recovered : Nat), store.Reachable db →
      (expired now.value db).length = n →
        (∀ e a, (e, a) ∈ expired now.value db → a.attemptNumber ≠ u32Max) →
          FreshDraws entropy draws n db → recovered + n ≤ u32Max →
            ∃ db', Swept now.value db db' ∧ ∀ fuel, n < fuel →
              recoverLoop now now.value entropy fuel draws recovered db =
                (some (.ok (recovered + n)), db') := by
  induction n with
  | zero =>
    intro db draws recovered hr hlength hnumbers hfresh hcount
    have hnil : expired now.value db = [] := List.eq_nil_of_length_eq_zero hlength
    refine ⟨db, ⟨hnil, ?_, fun id _ => .refl id db⟩, fun fuel hfuel => ?_⟩
    · rw [hnil]
      intro e a h
      cases h
    · obtain ⟨fuel, rfl⟩ : ∃ m, fuel = m + 1 := ⟨fuel - 1, by omega⟩
      simp only [recoverLoop, nextExpired, hnil, List.argmin_nil, Nat.add_zero]
  | succ n ih =>
    intro db draws recovered hr hlength hnumbers hfresh hcount
    have hc := coupled_of_reachable hr
    -- the row the query selects
    obtain ⟨⟨e, a⟩, hselect⟩ : ∃ row, nextExpired now.value db = some row := by
      refine Option.isSome_iff_exists.mp (Option.isSome_iff_ne_none.mpr fun hnone => ?_)
      rw [List.argmin_eq_none.mp hnone] at hlength
      cases hlength
    have hmem : (e, a) ∈ expired now.value db := List.argmin_mem hselect
    obtain ⟨⟨t, htriple⟩, -⟩ := hc.mem_expired.mp hmem
    obtain ⟨current, hdecode, hnames, -⟩ := legible_of_reachable hl hr _ a htriple.attempt
    -- its next request
    obtain ⟨ids, keys, hids⟩ := hfresh
    obtain ⟨hid, hkey, hnew, hnewKey, -⟩ := hids 0 (by omega)
    have hnumber : current.attemptNumber < u32Max := by
      have hvalid : a.Valid := Table.check_of_find? htriple.attempt
      have hne := hnumbers e a hmem
      have hle := hvalid.numberBound.2
      have heq := hnames.2.2
      unfold u32Max at *
      omega
    obtain ⟨next, hnext, hisNext⟩ := nextRequest_ok hdecode hnumber hid hkey
    have hparts := hisNext
    unfold IsNextRequest at hparts
    -- its replacement, and the rest of the sweep
    obtain ⟨payload, snapshot, db₁, hpayload, hretry, h⟩ :=
      retryExpired_ok hl hr htriple hmem hdecode hisNext hnew hnewKey
    have hr₁ : store.Reachable db₁ := by
      have := hr.next (.retryExpired ⟨next, now⟩)
      rwa [next_retryExpired, hretry] at this
    have hlength₁ : (expired now.value db₁).length = n := by
      have := length_expired_superseded hc h hmem
      omega
    obtain ⟨db₂, hswept, hrest⟩ := ih db₁ (draws + 2) (countRecovered recovered) hr₁ hlength₁
      (fun f b hf => hnumbers f b ((mem_expired_superseded hc h).mp hf).1)
      (FreshDraws.tail hids h (by rw [hparts]) (by rw [hparts]))
      (by unfold countRecovered; omega)
    refine ⟨db₂, swept_of_superseded hc h hmem (by rw [hparts]) hdecode
      (decode_of_encode hl hpayload) hisNext hswept, fun fuel hfuel => ?_⟩
    obtain ⟨fuel, rfl⟩ : ∃ m, fuel = m + 1 := ⟨fuel - 1, by omega⟩
    have hcounted : countRecovered recovered = recovered + 1 := Nat.min_eq_left (by omega)
    rw [recoverLoop, hselect]
    simp only [Nat.mul_zero, Nat.add_zero] at hnext
    simp only [hnext, hretry]
    rw [hrest fuel (by omega), hcounted, Nat.add_right_comm, Nat.add_assoc]

/-! ### Complete sweeps -/

omit [Wire] in
private theorem countRecovered_le (recovered : Nat) : countRecovered recovered ≤ u32Max :=
  Nat.min_le_right _ _

/-- The count of a sweep is a `u32`. -/
theorem recoverLoop_le {now : UnixMillis} {entropy : Entropy} {n : Nat} (fuel : Nat) :
    ∀ (draws recovered : Nat) (db : Database), recovered ≤ u32Max →
      (recoverLoop now now.value entropy fuel draws recovered db).1 = some (.ok n) →
        n ≤ u32Max := by
  induction fuel with
  | zero => intro _ _ _ _ h; cases h
  | succ fuel ih =>
    intro draws recovered db hle h
    unfold recoverLoop at h
    split at h
    · cases h
      exact hle
    · split at h
      · cases h
      · split at h
        · exact ih _ _ _ (countRecovered_le _) h
        · split at h
          · exact ih _ _ _ hle h
          · cases h

/-- The sweep answers the number of expired attempts and leaves none. -/
def SweepCompletes (now : UnixMillis) (entropy : Entropy) (db : Database) : Prop :=
  ∃ db', Swept now.value db db' ∧ ∃ enough, ∀ fuel, enough ≤ fuel →
    recoverExpired now entropy fuel db = (some (.ok (expired now.value db).length), db')

/-- **Recovery is complete** exactly when every expired attempt has a next number and their
count fits the answer. -/
theorem sweepCompletes_iff (hl : LosslessRequests) (hr : store.Reachable db) (now : UnixMillis)
    (entropy : Entropy) (hfresh : FreshDraws entropy 0 (expired now.value db).length db) :
    SweepCompletes now entropy db ↔
      (∀ e a, (e, a) ∈ expired now.value db → a.attemptNumber ≠ u32Max) ∧
        (expired now.value db).length ≤ u32Max := by
  have hrecover : ∀ fuel, recoverExpired now entropy fuel db =
      recoverLoop now now.value entropy fuel 0 0 db := by
    intro fuel
    rw [recoverExpired, toI64_unixMillis]
  constructor
  · rintro ⟨db', hswept, enough, hrun⟩
    refine ⟨fun e a hmem hlast => ?_, ?_⟩
    · -- the next attempt would have a number its column cannot hold
      obtain ⟨current, next, payload, attemptId, key, h⟩ := hswept.requeued e a hmem
      have hvalid : (attemptRow next payload now.value).Valid :=
        Table.check_of_find? h.triple.attempt
      have hbound : (next.attemptNumber : Int) ≤ 4294967295 := hvalid.numberBound.2
      have hnumber := h.number
      unfold u32Max at hlast
      omega
    · have := hrun enough (Nat.le_refl _)
      rw [hrecover] at this
      exact recoverLoop_le enough 0 0 db (by decide) (congrArg Prod.fst this)
  · rintro ⟨hnumbers, hcount⟩
    obtain ⟨db', hswept, hrun⟩ :=
      recoverLoop_complete hl _ db 0 0 hr rfl hnumbers hfresh (by omega)
    refine ⟨db', hswept, (expired now.value db).length + 1, fun fuel hfuel => ?_⟩
    rw [hrecover, hrun fuel hfuel, Nat.zero_add]

end Sweep

/-! ### The fixture's sweep -/

section Json

attribute [local instance] jsonWire

/-- Draws that repeat their own number. -/
def fixtureEntropy : Entropy := fun draw => some (Vector.replicate 24 (UInt8.ofNat draw))

/-- The time of the fixture's sweep. -/
def fixtureSweep : UnixMillis := fixtureLate

/-- The attempt id that the fixture's sweep draws. -/
private def sweptAttemptId : AttemptId :=
  ⟨"attempt_000000000000000000000000000000000000000000000000", by decide +kernel⟩

/-- The idempotency key that the fixture's sweep draws. -/
private def sweptKey : IdempotencyKey :=
  ⟨"idem_retry_010101010101010101010101010101010101010101010101", by decide +kernel⟩

/-- A request under the fixture's attempt id and key, claimed and expired: the sweep finds it
and nothing else, and its draws are fresh. -/
private theorem exists_expired (request : EvaluationRequest) (hmedia : request.MediaTypeAccepted)
    (hcapabilities : validRequiredCapabilities (request.requiredCapabilities.map (·.value)) = true)
    (hattempt : request.attemptId = fixtureParts.attemptId)
    (hkey : request.idempotencyKey = fixtureParts.idempotencyKey) :
    ∃ db e a, store.Reachable db ∧ expired fixtureSweep.value db = [(e, a)] ∧
      decodeEvaluationRequest a.requestPayload = .ok request ∧
        a.attemptNumber = request.attemptNumber ∧ FreshDraws fixtureEntropy 0 1 db := by
  obtain ⟨payload, db, db', hrun, hpayload, hcreated, hclaimed⟩ :=
    exists_claimed_fixture request hmedia hcapabilities
  have hc := coupled_of_reachable ⟨_, hrun⟩
  have htriple := hclaimed.rewritten.triple'
  refine ⟨db', (evaluationRow request payload 0).move .leased 1000,
    (attemptRow request payload 0).claim fixtureClaim.nodeId fixtureClaim.leaseToken 2000 none 1000,
    ⟨_, hrun⟩, ?_, decode_of_encode (WireType.json_lossless _) hpayload, rfl, ?_⟩
  · -- the one row there is has expired
    refine List.perm_singleton.mp ((List.perm_ext_iff_of_nodup (nodup_expired _ _)
      (List.nodup_singleton _)).mpr ?_)
    rintro ⟨f, b⟩
    rw [hc.mem_expired, List.mem_singleton]
    constructor
    · rintro ⟨⟨s, hf⟩, -⟩
      have hid : f.evaluationId = request.evaluationId := by
        rcases hclaimed.rewritten.triple_cases hf with ⟨rfl, -, -⟩ | hf
        · rfl
        · rcases hcreated.triple_cases hf with ⟨rfl, -, -⟩ | hf
          · rfl
          · cases hf.evaluation
      obtain ⟨rfl, rfl, -⟩ := htriple.unique hf hid
      rfl
    · intro heq
      obtain ⟨rfl, rfl⟩ := Prod.mk.inj heq
      exact ⟨⟨_, htriple⟩, rfl, 2000, rfl, by decide⟩
  · refine ⟨fun _ => sweptAttemptId, fun _ => sweptKey, fun i hi => ?_⟩
    obtain rfl : i = 0 := by omega
    refine ⟨by decide +kernel, by decide +kernel, hclaimed.find?_eq_none hcreated ?_,
      hclaimed.key_ne hcreated ?_, fun j hj => absurd hj (Nat.not_lt_zero j)⟩
    · rw [hattempt]
      decide +kernel
    · rw [hkey]
      decide +kernel

/-- The sweep of the fixture's expired lease completes. -/
theorem sweepCompletes_fixture :
    ∃ db, store.Reachable db ∧ (expired fixtureSweep.value db).length = 1 ∧
      SweepCompletes fixtureSweep fixtureEntropy db := by
  obtain ⟨db, e, a, hr, hexpired, -, hnumber, hfresh⟩ :=
    exists_expired fixtureRequest fixtureParts_mediaType (by decide +kernel) rfl rfl
  have hlength : (expired fixtureSweep.value db).length = 1 := by rw [hexpired]; rfl
  refine ⟨db, hr, hlength, (sweepCompletes_iff (WireType.json_lossless _) hr fixtureSweep
    fixtureEntropy (hlength ▸ hfresh)).mpr ⟨?_, by rw [hlength]; decide⟩⟩
  intro f b hmem
  rw [hexpired, List.mem_singleton] at hmem
  obtain ⟨-, rfl⟩ := Prod.mk.inj hmem
  rw [hnumber]
  decide

/-- The fixture, asking for the last attempt number there is. -/
def lastRequest : EvaluationRequest :=
  ⟨{ fixtureParts with attemptNumber := u32Max }, by decide +kernel⟩

/-- An expired attempt with the last number stops the sweep, each time. -/
theorem recoverExpired_stopped :
    ∃ db, store.Reachable db ∧ (expired fixtureSweep.value db).length = 1 ∧
      FreshDraws fixtureEntropy 0 1 db ∧
        ∀ fuel, recoverExpired fixtureSweep fixtureEntropy (fuel + 1) db =
          (some (.error .corruptData), db) := by
  obtain ⟨db, e, a, hr, hexpired, hdecode, -, hfresh⟩ :=
    exists_expired lastRequest fixtureParts_mediaType (by decide +kernel) rfl rfl
  refine ⟨db, hr, by rw [hexpired]; rfl, hfresh, fun fuel => ?_⟩
  obtain ⟨ids, keys, hids⟩ := hfresh
  obtain ⟨hid, hkey, -⟩ := hids 0 (by omega)
  have hselect : nextExpired fixtureSweep.value db = some (e, a) := by
    rw [nextExpired, hexpired]
    rfl
  have hnext : nextRequest (fixtureEntropy 0) (fixtureEntropy 1) a = .error .corruptData := by
    simp only [nextRequest, hdecode, reportAs_ok, ok_bind]
    rw [show nextAttemptId (fixtureEntropy 0) = _ from hid,
      show nextIdempotencyKey (fixtureEntropy 1) = _ from hkey]
    have hlast : lastRequest.attemptNumber = u32Max := rfl
    rw [ok_bind, ok_bind, EvaluationRequest.withNextAttempt_last hlast, reportAs_error]
  rw [recoverExpired, toI64_unixMillis]
  simp only [recoverLoop, hselect, Nat.zero_add, hnext]

/-- The store after the fixture was claimed, its lease expired, and its next attempt was
queued. -/
theorem exists_retried_fixture :
    ∃ payload payload' db db', store.Reachable db' ∧
      encodeEvaluationRequest fixtureRequest = .ok payload ∧
      encodeEvaluationRequest fixtureNext = .ok payload' ∧
      Superseded db db' ((evaluationRow fixtureRequest payload 0).move .leased 1000)
        ((attemptRow fixtureRequest payload 0).claim fixtureClaim.nodeId fixtureClaim.leaseToken
          2000 none 1000)
        ((taskRow fixtureRequest 0).move .leased 1000) fixtureNext payload' fixtureSweep.value := by
  obtain ⟨payload, db, db', hrun, hpayload, hcreated, hclaimed⟩ :=
    exists_claimed_fixture fixtureRequest fixtureParts_mediaType (by decide +kernel)
  have hl : LosslessRequests := WireType.json_lossless _
  have hr : store.Reachable db' := ⟨_, hrun⟩
  have htriple := hclaimed.rewritten.triple'
  have hmem : (_, _) ∈ expired fixtureSweep.value db' :=
    (coupled_of_reachable hr).mem_expired.mpr ⟨⟨_, htriple⟩, rfl, 2000, rfl, by decide⟩
  obtain ⟨hattempt, hkey⟩ := hclaimed.fixtureNext_unused hcreated
  have hnext : IsNextRequest fixtureRequest fixtureNext fixtureNext.attemptId
    fixtureNext.idempotencyKey := rfl
  obtain ⟨payload', snapshot, db'', hpayload', hretry, h⟩ := retryExpired_ok hl hr htriple hmem
    (decode_of_encode hl hpayload) hnext hattempt hkey
  have hstep : store.next (.retryExpired ⟨fixtureNext, fixtureSweep⟩) db' = db'' := by
    rw [next_retryExpired, hretry]
  exact ⟨payload, payload', db', db'', hstep ▸ hr.next _, hpayload, hpayload', h⟩

end Json

/-! ### The invariant of the store -/

section Invariant

variable [Wire]

/-- **The coupling invariant.** In every reachable database, every evaluation is in step with its
current attempt and the attempt's task. -/
theorem evaluation_coupled (hr : store.Reachable db) {id : EvaluationId} {e : EvaluationRow}
    (he : db.evaluations.find? id = some e) : ∃ a t, EvaluationCoupled db e a t :=
  (coupled_of_reachable hr).evaluations id e he

end Invariant

section Json

attribute [local instance] jsonWire

/-- The fixture's evaluation after two attempts: the first was claimed and its lease expired, and
the second is queued. -/
theorem evaluation_coupled_fixture :
    ∃ db e a t, store.Reachable db ∧
      db.evaluations.find? fixtureRequest.evaluationId = some e ∧ e.state = .queued ∧
        e.currentAttemptId = fixtureNext.attemptId ∧
        (∃ b, db.attempts.find? fixtureRequest.attemptId = some b ∧ b.state = .expired) ∧
        EvaluationCoupled db e a t := by
  obtain ⟨payload, payload', _, db, hr, -, -, h⟩ := exists_retried_fixture
  obtain ⟨a, t, hcoupled⟩ := evaluation_coupled hr h.triple'.evaluation
  exact ⟨db, _, a, t, hr, h.triple'.evaluation, rfl, rfl, ⟨_, h.old_attempt, rfl⟩, hcoupled⟩

end Json
end OpenOJ
