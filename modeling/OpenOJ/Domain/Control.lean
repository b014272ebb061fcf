import OpenOJ.Domain.Value

/-!
# Time, leases and life cycles

Timestamps and lease durations are bounded (`UnixMillis`, up to the year 9999; `LeaseDuration`, up
to an hour), so adding one to the other is checked against the same bound and cannot wrap
(`UnixMillis.checkedAdd_eq_ok`). The stored columns are 64-bit signed integers, and every timestamp
fits one (`toI64_unixMillis`); `toI64` and `toU64` are the conversions that could fail.

The second part holds the two life cycles of the domain:

* an evaluation is queued, leased, and in the end completed, failed or cancelled
  (`EvaluationState`); from a lease it can go back to the queue, and from nowhere out of an end;
* an attempt is queued, leased, and in the end completed, failed, cancelled or expired
  (`AttemptState`); it is never queued again.

`transitionTo` is the function the domain offers for a step along them, and `Moves` the relation it
decides. The store writes its state columns without calling it; that what it writes are such moves
is proved of the store.
-/

namespace OpenOJ

def maxUnixMillis : Nat := 253402300799999

def maxLeaseDurationMs : Nat := 3600000

/-- Unix milliseconds up to the end of the year 9999. -/
structure UnixMillis where
  value : Nat
  valid : value ≤ maxUnixMillis
  deriving DecidableEq

/-- `UnixMillis::new`. -/
def UnixMillis.new (value : Nat) : Except DomainError UnixMillis :=
  if h : value ≤ maxUnixMillis then .ok ⟨value, h⟩
  else .error (.outOfRange "unix_millis" 0 maxUnixMillis value)

/-- A lease duration between one millisecond and one hour. -/
structure LeaseDuration where
  value : Nat
  valid : 1 ≤ value ∧ value ≤ maxLeaseDurationMs
  deriving DecidableEq

/-- `LeaseDuration::new`. -/
def LeaseDuration.new (value : Nat) : Except DomainError LeaseDuration :=
  if h : 1 ≤ value ∧ value ≤ maxLeaseDurationMs then .ok ⟨value, h⟩
  else .error (.outOfRange "lease_duration_ms" 1 maxLeaseDurationMs value)

/-- `UnixMillis::checked_add`. -/
def UnixMillis.checkedAdd (time : UnixMillis) (duration : LeaseDuration) :
    Except DomainError UnixMillis :=
  if h : time.value + duration.value ≤ maxUnixMillis then .ok ⟨time.value + duration.value, h⟩
  else .error (.outOfRange "lease_expires_at_ms" 0 maxUnixMillis (time.value + duration.value))

theorem UnixMillis.checkedAdd_eq_ok {time expiry : UnixMillis} {duration : LeaseDuration} :
    time.checkedAdd duration = .ok expiry ↔ expiry.value = time.value + duration.value := by
  unfold UnixMillis.checkedAdd
  split
  · cases expiry
    simp [eq_comm]
  · rename_i h
    have := expiry.valid
    simp only [reduceCtorEq, false_iff]
    omega

/-- `i64::MAX`. -/
def i64Max : Nat := 9223372036854775807

/-- `i64::try_from` of an unsigned 64-bit value. -/
def toI64 (value : Nat) : Option Int := if value ≤ i64Max then some value else none

/-- `u64::try_from` of a signed 64-bit value. -/
def toU64 (value : Int) : Option Nat := if 0 ≤ value then some value.toNat else none

@[simp]
theorem toI64_unixMillis (time : UnixMillis) : toI64 time.value = some (time.value : Int) := by
  have h : time.value ≤ 253402300799999 := time.valid
  exact if_pos (by unfold i64Max; omega)

@[simp] theorem toU64_natCast (n : Nat) : toU64 n = some n := by simp [toU64]

/-! ### Life cycles -/

/-- The life cycle of an evaluation. -/
inductive EvaluationState where
  | queued
  | leased
  | completed
  | failed
  | cancelled
  deriving DecidableEq, Repr

def EvaluationState.asStr : EvaluationState → String
  | .queued => "queued"
  | .leased => "leased"
  | .completed => "completed"
  | .failed => "failed"
  | .cancelled => "cancelled"

/-- `EvaluationState::transition_to`. -/
def EvaluationState.transitionTo (state next : EvaluationState) :
    Except DomainError EvaluationState :=
  match state, next with
  | .queued, .leased | .queued, .cancelled => .ok next
  | .leased, .queued | .leased, .completed | .leased, .failed | .leased, .cancelled => .ok next
  | _, _ => .error (.invalidTransition "evaluation" state.asStr next.asStr)

/-- The life cycle of one attempt. -/
inductive AttemptState where
  | queued
  | leased
  | completed
  | failed
  | cancelled
  | expired
  deriving DecidableEq, Repr

def AttemptState.asStr : AttemptState → String
  | .queued => "queued"
  | .leased => "leased"
  | .completed => "completed"
  | .failed => "failed"
  | .cancelled => "cancelled"
  | .expired => "expired"

/-- `AttemptState::transition_to`. -/
def AttemptState.transitionTo (state next : AttemptState) : Except DomainError AttemptState :=
  match state, next with
  | .queued, .leased | .queued, .cancelled => .ok next
  | .leased, .completed | .leased, .failed | .leased, .cancelled | .leased, .expired => .ok next
  | _, _ => .error (.invalidTransition "attempt" state.asStr next.asStr)

/-- The domain accepts a move from one state of an evaluation to another. -/
def EvaluationState.Moves (state next : EvaluationState) : Prop :=
  state.transitionTo next = .ok next

/-- The domain accepts a move from one state of an attempt to another. -/
def AttemptState.Moves (state next : AttemptState) : Prop := state.transitionTo next = .ok next

end OpenOJ
