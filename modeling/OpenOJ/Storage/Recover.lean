import OpenOJ.Storage.Lease

/-!
# Recovering expired attempts

The sweep asks for the expired attempt with the earliest expiry (`nextExpired`), retries it under a
fresh attempt id and idempotency key, and asks again until there is none. The query and the retry
are separate, so a retry may find its row already moved on; those refusals are skipped
(`StoreError.skipped`).

* `nextAttemptId` and `nextIdempotencyKey` make a name of a draw of random bytes (`Draw`), which may
  fail; a sweep takes its draws from `Entropy`, two for each retry;
* `nextRequest` is the request of the attempt with the next number, which there is not for the last
  one;
* `recoverLoop` is the loop. It is bounded by `fuel` and answers `none` when that runs out, and it
  counts what it recovered in 32 bits, without going beyond the greatest number (`countRecovered`);
* `recoverExpired` is the operation.
-/

namespace OpenOJ

open Outcome

/-! ### Fresh identifiers -/

/-- One draw of `getrandom::fill` into 24 bytes. -/
abbrev Draw := Vector UInt8 24

/-- The digit of a number below sixteen, in lower case. -/
def hexDigit (n : Nat) : Char := Nat.digitChar n

/-- `hex::encode`. -/
def hexEncode (bytes : List UInt8) : String :=
  String.ofList (bytes.flatMap fun b => [hexDigit (b.toNat / 16), hexDigit (b.toNat % 16)])

/-- `next_attempt_id`. -/
def nextAttemptId (draw : Option Draw) : Except StoreError AttemptId := do
  let bytes ← orRefuse .unavailable draw
  reportAs .corruptData (OpaqueId.parse "attempt_id" ("attempt_" ++ hexEncode bytes.toList))

/-- `next_idempotency_key`. -/
def nextIdempotencyKey (draw : Option Draw) : Except StoreError IdempotencyKey := do
  let bytes ← orRefuse .unavailable draw
  reportAs .corruptData (IdempotencyKey.parse ("idem_retry_" ++ hexEncode bytes.toList))

/-- The draws of a sweep, in order; `none` is a draw that failed. -/
abbrev Entropy := Nat → Option Draw

/-! ### The query -/

/-- The current attempts whose lease ends before `now`. -/
def expired (now : Int) (db : Database) : List (EvaluationRow × AttemptRow) := do
  let e ← db.evaluations.rows
  let a ← (db.attempts.find? e.currentAttemptId).toList
  if e.state = .leased ∧ a.state = .leased ∧ a.leaseExpiresAtMs.any (· < now) then [(e, a)]
  else []

/-- `ORDER BY a.lease_expires_at_ms, a.attempt_id LIMIT 1`. -/
def nextExpired (now : Int) (db : Database) : Option (EvaluationRow × AttemptRow) :=
  (expired now db).argmin fun row => position (row.2.leaseExpiresAtMs.getD 0) row.2.attemptId

/-! ### The loop -/

/-- `recovered.saturating_add(1)` on a `u32`. -/
def countRecovered (recovered : Nat) : Nat := min (recovered + 1) u32Max

/-- The errors after which the sweep goes on to the next row. -/
def StoreError.skipped : StoreError → Bool
  | .leaseConflict | .invalidTransition | .identityConflict | .notFound => true
  | _ => false

section Operations

variable [Wire]

/-- The next attempt's request for a selected row. -/
def nextRequest (attemptDraw keyDraw : Option Draw) (a : AttemptRow) :
    Except StoreError EvaluationRequest := do
  let current ← reportAs .corruptData (decodeEvaluationRequest a.requestPayload)
  let attemptId ← nextAttemptId attemptDraw
  let idempotencyKey ← nextIdempotencyKey keyDraw
  reportAs .corruptData (current.withNextAttempt attemptId idempotencyKey)

/-- The loop of `recover_expired`, after `draws` draws and `recovered` recoveries. -/
def recoverLoop (now : UnixMillis) (nowMs : Int) (entropy : Entropy) :
    Nat → Nat → Nat → Database → Option (Except StoreError Nat) × Database
  | 0, _, _, db => (none, db)
  | fuel + 1, draws, recovered, db =>
    match nextExpired nowMs db with
    | none => (some (.ok recovered), db)
    | some (_, a) =>
      match nextRequest (entropy draws) (entropy (draws + 1)) a with
      | .error e => (some (.error e), db)
      | .ok next =>
        match retryExpired { request := next, now } db with
        | (.ok _, db) =>
          recoverLoop now nowMs entropy fuel (draws + 2) (countRecovered recovered) db
        | (.error e, db) =>
          if e.skipped then recoverLoop now nowMs entropy fuel (draws + 2) recovered db
          else (some (.error e), db)

/-- `recover_expired`. -/
def recoverExpired (now : UnixMillis) (entropy : Entropy) (fuel : Nat) (db : Database) :
    Option (Except StoreError Nat) × Database :=
  match toI64 now.value with
  | none => (some (.error .invalidTime), db)
  | some nowMs => recoverLoop now nowMs entropy fuel 0 0 db

end Operations
end OpenOJ
