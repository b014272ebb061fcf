import Mathlib.Logic.Function.Basic
import Mathlib.Logic.Relation
import Mathlib.Tactic.Common

/-!
# Locks held to the end

Parties lock rows one after another and keep what they have locked until they are through. `Locks`
says who holds which row, `take` and `release` are the two steps, and a party that wants a row
another one holds waits for it, and waits for nobody else (`Waits`); so a deadlock is a cycle of
waits (`Deadlocked`).

Three rules carry freedom from deadlock from one step to the next:

* `Locks.deadlocked_iff_headOn`: where no chain of three waits leads anywhere but back, every
  deadlock is one of two parties that wait for each other, *head-on* (`HeadOn`);
* `Locks.Waits.of_take`, `Locks.Waits.of_release`: a step of one party leaves no new waits between
  the others;
* `Locks.headOn_take`: a party that locks a row, to lock the next one after it, while the holder of
  the next one is about to lock the first, is deadlocked with it.

The first is where an order of the rows would normally stand: it does not ask for one, only that
waits do not chain, which is what a protocol has whose parties lock the rows of one thing each. The
third makes the condition of a whole system exact: where it is violated, there is a run into a
deadlock and not just no proof that there is none.
-/

open Relation

/-- Who holds each row. -/
def Locks (ι ρ : Type*) : Type _ := ρ → Option ι

namespace Locks

variable {ι ρ : Type*}

/-- No row is held. -/
def empty : Locks ι ρ := fun _ => none

/-- A party may lock a row that no other one holds. -/
def Free (locks : Locks ι ρ) (i : ι) (r : ρ) : Prop := ∀ j ∈ locks r, j = i

instance [DecidableEq ι] (locks : Locks ι ρ) (i : ι) (r : ρ) : Decidable (locks.Free i r) :=
  inferInstanceAs (Decidable (∀ j ∈ locks r, j = i))

/-- A party locks a row. -/
def take [DecidableEq ρ] (locks : Locks ι ρ) (i : ι) (r : ρ) : Locks ι ρ :=
  Function.update locks r (some i)

/-- A party gives up what it holds. -/
def release [DecidableEq ι] (locks : Locks ι ρ) (i : ι) : Locks ι ρ :=
  fun r => if locks r = some i then none else locks r

/-- One party waits for another, which holds the row that it wants. -/
def Waits (locks : Locks ι ρ) (wants : ι → Option ρ) (i j : ι) : Prop :=
  i ≠ j ∧ ∃ r, wants i = some r ∧ locks r = some j

/-- A cycle of parties, each waiting for a row the next one holds. -/
def Deadlocked (locks : Locks ι ρ) (wants : ι → Option ρ) : Prop :=
  ∃ i, TransGen (locks.Waits wants) i i

/-- Two parties wait for each other. -/
def HeadOn (locks : Locks ι ρ) (wants : ι → Option ρ) (i j : ι) : Prop :=
  locks.Waits wants i j ∧ locks.Waits wants j i

variable {locks : Locks ι ρ} {wants wants' : ι → Option ρ} {i j k l : ι} {r n : ρ}

theorem HeadOn.symm (h : locks.HeadOn wants i j) : locks.HeadOn wants j i := ⟨h.2, h.1⟩

/-- Two parties that wait for each other are deadlocked. -/
theorem HeadOn.deadlocked (h : locks.HeadOn wants i j) : locks.Deadlocked wants :=
  ⟨i, .tail (.single h.1) h.2⟩

/-- **Short chains.** Where a party that is waited for, and waits for one that waits for one that
waits, is the third of them, every deadlock is head-on. -/
theorem deadlocked_iff_headOn
    (hchain : ∀ {h i j k l}, locks.Waits wants h i → locks.Waits wants i j →
      locks.Waits wants j k → locks.Waits wants k l → k = i) :
    locks.Deadlocked wants ↔ ∃ i j, locks.HeadOn wants i j := by
  refine ⟨?_, fun ⟨_, _, h⟩ => h.deadlocked⟩
  rintro ⟨i, hcycle⟩
  obtain ⟨h, -, hlast⟩ := TransGen.tail'_iff.mp hcycle
  obtain ⟨j, hfirst, hrest⟩ := TransGen.head'_iff.mp hcycle
  rcases hrest.cases_head with rfl | ⟨k, hsecond, hrest⟩
  · exact absurd rfl hfirst.1
  · rcases hrest.cases_head with rfl | ⟨l, hthird, -⟩
    · exact ⟨k, j, hfirst, hsecond⟩
    · obtain rfl := hchain hlast hfirst hsecond hthird
      exact ⟨k, j, hfirst, hsecond⟩

theorem free_empty : (empty : Locks ι ρ).Free i r := nofun

section Take

variable [DecidableEq ρ]

@[simp] theorem take_self : locks.take i r r = some i := Function.update_self _ _ _

theorem take_of_ne (h : n ≠ r) : locks.take i r n = locks n := Function.update_of_ne h _ _

theorem free_take_of_ne (h : n ≠ r) : (locks.take j r).Free i n ↔ locks.Free i n := by
  rw [Free, take_of_ne h, Free]

/-- A party may lock what it holds. -/
theorem free_take_self : (locks.take i r).Free i r := by
  intro j hj
  rw [take_self] at hj
  exact (Option.some.inj hj).symm

/-- What it may lock, it still may once it has locked another row. -/
theorem Free.take (h : locks.Free i n) : (locks.take i r).Free i n := by
  by_cases hn : n = r
  · exact hn ▸ free_take_self
  · exact (free_take_of_ne hn).mpr h

theorem take_eq_some (hfree : locks.Free i r) :
    locks.take i r n = some j ↔ locks n = some j ∨ n = r ∧ j = i := by
  by_cases h : n = r
  · subst h
    rw [take_self, Option.some.injEq]
    refine ⟨fun hij => .inr ⟨rfl, hij.symm⟩, ?_⟩
    rintro (hj | ⟨-, rfl⟩)
    · exact (hfree j hj).symm
    · rfl
  · rw [take_of_ne h]
    exact ⟨.inl, fun hj => hj.resolve_right fun hr => h hr.1⟩

theorem take_other (hfree : locks.Free i r) (h : j ≠ i) :
    locks.take i r n = some j ↔ locks n = some j := by
  rw [take_eq_some hfree, or_iff_left fun hj => h hj.2]

/-- A step of one party leaves no new waits between the others. -/
theorem Waits.of_take (h : (locks.take i r).Waits wants' j k) (hj : j ≠ i) (hk : k ≠ i)
    (hwants : ∀ j, j ≠ i → wants' j = wants j) : locks.Waits wants j k := by
  obtain ⟨hne, n, hn, hheld⟩ := h
  have hnr : n ≠ r := by
    rintro rfl
    rw [take_self] at hheld
    exact hk (Option.some.inj hheld).symm
  rw [take_of_ne hnr] at hheld
  exact ⟨hne, n, hwants j hj ▸ hn, hheld⟩

/-- **Meeting head-on.** A party that locks a row while the holder of the row it wants next is
about to lock it is deadlocked with that one. -/
theorem headOn_take (hfree : locks.Free i r) (hij : i ≠ j) (hnext : wants' i = some n)
    (hheld : locks n = some j) (hwants : wants' j = some r) :
    (locks.take i r).HeadOn wants' i j :=
  ⟨⟨hij, n, hnext, (take_eq_some hfree).mpr (.inl hheld)⟩,
    ⟨hij.symm, r, hwants, take_self⟩⟩

end Take

section Release

variable [DecidableEq ι]

theorem release_eq_some : locks.release i r = some j ↔ locks r = some j ∧ j ≠ i := by
  unfold release
  split_ifs with h
  · refine ⟨nofun, fun ⟨hj, hne⟩ => ?_⟩
    exact absurd (Option.some.inj (hj.symm.trans h)) hne
  · refine ⟨fun hj => ⟨hj, ?_⟩, And.left⟩
    rintro rfl
    exact h hj

/-- Where one party gives up what it holds, and no other wants anything new, no one waits anew. -/
theorem Waits.of_release (h : (locks.release i).Waits wants' j k) (hi : wants' i = none)
    (hwants : ∀ j, j ≠ i → wants' j = wants j) : locks.Waits wants j k := by
  obtain ⟨hne, n, hn, hheld⟩ := h
  have hj : j ≠ i := by
    rintro rfl
    rw [hi] at hn
    cases hn
  exact ⟨hne, n, hwants j hj ▸ hn, (release_eq_some.mp hheld).1⟩

/-- Nor does a cycle of waits come about. -/
theorem Deadlocked.of_release (h : (locks.release i).Deadlocked wants') (hi : wants' i = none)
    (hwants : ∀ j, j ≠ i → wants' j = wants j) : locks.Deadlocked wants := by
  obtain ⟨j, hcycle⟩ := h
  exact ⟨j, TransGen.mono (fun _ _ hwaits => Waits.of_release hwaits hi hwants) _ _ hcycle⟩

end Release

end Locks
