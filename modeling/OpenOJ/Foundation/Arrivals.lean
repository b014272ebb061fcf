import Mathlib.Order.Lattice
import OpenOJ.Foundation.Chunks

/-!
# Streams that take their time

The chunks of a stream arrive one after the other (`Timed`), and a reader gives up when it has to
wait too long for one. `readExactWithin` fills a buffer from such a stream: each of its reads waits
for the next chunk, for so long at most, and the clock goes on to when the chunk was there. It fails
in one of two ways (`Shortfall`): the stream ended, or a chunk came too late.

The two rules compare it with `Chunks.readExact`, which waits as long as it takes:

* `readExactWithin_of_readExact`: a buffer that could be filled from chunks that are there in time
  is filled, with what a patient reader would have found, and what is left is the same stream;
* `readExactWithin_of_late`: a chunk that comes too late for the first read fails it, whatever it
  would have brought.

`arriveAt` makes a timed stream of one that arrives as a whole at one moment, as an answer does that
is sent when it is complete; how it is cut into chunks is left open (`arriveAt_push`).
-/

universe u

namespace Arrivals

open Chunks

variable {α : Type u}

/-- A stream in chunks, each with the time at which it arrives. -/
abbrev Timed (α : Type u) := List (Nat × α × List α)

/-- Why a buffer is not filled. -/
inductive Shortfall where
  | timedOut
  | ended
  deriving DecidableEq

/-- A stream of which everything arrives at one time. -/
def arriveAt (time : Nat) (s : Source α) : Timed α := s.map (Prod.mk time)

/-- Puts the rest of a chunk in front of those that follow it. -/
def pushAt (time : Nat) (as : List α) (chunks : Timed α) : Timed α :=
  arriveAt time (push as []) ++ chunks

/-- Reads until the buffer is full, and waits for each chunk for so long at most: the items, when
the last of them was there, and what follows. -/
def readExactWithin (timeout : Nat) : Nat → Nat → Timed α →
    Except Shortfall (List α × Nat × Timed α)
  | n, now, [] => if n = 0 then .ok ([], now, []) else .error .ended
  | n, now, (time, a, as) :: chunks =>
    if n = 0 then .ok ([], now, (time, a, as) :: chunks)
    else if now + timeout < time then .error .timedOut
    else if n ≤ (a :: as).length then
      .ok ((a :: as).take n, max now time, pushAt time ((a :: as).drop n) chunks)
    else
      (readExactWithin timeout (n - (a :: as).length) (max now time) chunks).map
        fun (bs, now, rest) => (a :: as ++ bs, now, rest)

theorem arriveAt_push (time : Nat) (as : List α) (s : Source α) :
    arriveAt time (push as s) = pushAt time as (arriveAt time s) := by
  cases as <;> rfl

theorem pushAt_append (time : Nat) (as : List α) (chunks later : Timed α) :
    pushAt time as chunks ++ later = pushAt time as (chunks ++ later) :=
  List.append_assoc _ _ _

theorem readExactWithin_zero (timeout now : Nat) (s : Timed α) :
    readExactWithin timeout 0 now s = .ok ([], now, s) := by
  cases s <;> rfl

/-- **In time**, a buffer is filled as if the reader had all the time there is. -/
theorem readExactWithin_of_readExact {timeout n now time : Nat} {s rest : Source α} {bs : List α}
    (hintime : time ≤ now + timeout) (h : readExact n s = some (bs, rest)) (later : Timed α) :
    ∃ now', now ≤ now' ∧
      readExactWithin timeout n now (arriveAt time s ++ later) =
        .ok (bs, now', arriveAt time rest ++ later) := by
  rcases Nat.eq_zero_or_pos n with rfl | hn
  · rw [readExact_zero] at h
    obtain ⟨rfl, rfl⟩ := Prod.ext_iff.mp (Option.some_inj.mp h)
    exact ⟨now, le_rfl, readExactWithin_zero _ _ _⟩
  induction s generalizing n now bs rest with
  | nil =>
    rw [readExact, if_neg (Nat.ne_of_gt hn)] at h
    cases h
  | cons chunk chunks ih =>
    obtain ⟨a, as⟩ := chunk
    have hmax : now ≤ max now time := le_max_left _ _
    rw [arriveAt, List.map_cons, List.cons_append, readExactWithin, if_neg (Nat.ne_of_gt hn),
      if_neg (Nat.not_lt.mpr hintime)]
    rw [readExact] at h
    split_ifs at h ⊢ with hfits
    · refine ⟨_, hmax, ?_⟩
      obtain ⟨rfl, rfl⟩ := Prod.ext_iff.mp (Option.some_inj.mp h)
      rw [Chunks.read, arriveAt_push, pushAt_append]
      rfl
    · -- the chunk is used up, and later reads have waited no less
      obtain ⟨⟨cs, rest'⟩, hcs, heq⟩ := Option.map_eq_some_iff.mp h
      obtain ⟨rfl, rfl⟩ := Prod.ext_iff.mp heq
      obtain ⟨now', hnow', hread⟩ := ih (hintime.trans (Nat.add_le_add_right hmax timeout)) hcs
        (Nat.sub_pos_of_lt (Nat.not_le.mp hfits))
      refine ⟨now', hmax.trans hnow', ?_⟩
      rw [arriveAt] at hread
      rw [hread]
      rfl

/-- **Too late**, whatever it brings. -/
theorem readExactWithin_of_late {timeout n now time : Nat} {s : Source α} (hn : 0 < n)
    (hs : s ≠ []) (hlate : now + timeout < time) (later : Timed α) :
    readExactWithin timeout n now (arriveAt time s ++ later) = .error .timedOut := by
  obtain ⟨⟨a, as⟩, chunks, rfl⟩ := List.exists_cons_of_ne_nil hs
  rw [arriveAt, List.map_cons, List.cons_append, readExactWithin, if_neg (Nat.ne_of_gt hn),
    if_pos hlate]

end Arrivals
