import Mathlib.Logic.Relation
import Mathlib.Tactic.Common

/-!
# Machines and their runs

A machine has a starting state and answers inputs one at a time (`Machine`, `Machine.next`,
`Machine.answer`). Its runs are lists of inputs (`Machine.run`), so a statement about "every run" is
one about every list, and a state is `Machine.Reachable` when a run leads there.

Three rules carry properties from single steps to runs:

* `Machine.Reachable.induction`: what the start satisfies and every step preserves holds of every
  reachable state;
* `Machine.run_preserves`: what every step preserves, a run preserves;
* `Machine.run_related`: a reflexive and transitive relation between the states around every step
  relates the ends of a run.

In each of them a step may use that the state before it is reachable.

A run whose every step meets a condition on the state before it (`Machine.Meets`) preserves what
such steps preserve (`Machine.Meets.preserves`); and where the condition is exact for single steps,
it is for runs (`Machine.meets_iff_forall_prefix`): the runs of which every part ends well are those
whose steps all meet it. `Machine.meets_append` takes such runs apart.
-/

universe u v w

/-- A machine that answers each input and moves to a next state. -/
structure Machine (σ : Type u) (ι : Type v) (ο : Type w) where
  start : σ
  step : ι → σ → ο × σ

namespace Machine

variable {σ : Type u} {ι : Type v} {ο : Type w} (m : Machine σ ι ο)

/-- The state after an input. -/
def next (i : ι) (s : σ) : σ := (m.step i s).2

/-- The answer to an input. -/
def answer (i : ι) (s : σ) : ο := (m.step i s).1

/-- The state after a run from `s`. -/
def runFrom (s : σ) (is : List ι) : σ := is.foldl (fun s i => m.next i s) s

/-- The state after a run from the start. -/
def run (is : List ι) : σ := m.runFrom m.start is

/-- A state some run from the start ends in. -/
def Reachable (s : σ) : Prop := ∃ is, m.run is = s

@[simp] theorem runFrom_nil (s : σ) : m.runFrom s [] = s := rfl

@[simp] theorem runFrom_cons (s : σ) (i : ι) (is : List ι) :
    m.runFrom s (i :: is) = m.runFrom (m.next i s) is := rfl

@[simp]
theorem runFrom_append (s : σ) (is js : List ι) :
    m.runFrom s (is ++ js) = m.runFrom (m.runFrom s is) js := by
  simp [runFrom]

@[simp] theorem run_nil : m.run [] = m.start := rfl

theorem run_append (is js : List ι) : m.run (is ++ js) = m.runFrom (m.run is) js :=
  m.runFrom_append _ _ _

@[simp]
theorem run_concat (is : List ι) (i : ι) : m.run (is ++ [i]) = m.next i (m.run is) := by
  rw [run_append, runFrom_cons, runFrom_nil]

theorem reachable_start : m.Reachable m.start := ⟨[], rfl⟩

theorem reachable_run (is : List ι) : m.Reachable (m.run is) := ⟨is, rfl⟩

variable {m}

theorem Reachable.next {s : σ} (h : m.Reachable s) (i : ι) : m.Reachable (m.next i s) := by
  obtain ⟨is, rfl⟩ := h
  exact ⟨is ++ [i], m.run_concat is i⟩

theorem Reachable.runFrom {s : σ} (h : m.Reachable s) (is : List ι) :
    m.Reachable (m.runFrom s is) := by
  obtain ⟨js, rfl⟩ := h
  exact ⟨js ++ is, m.run_append js is⟩

/-- **Stability.** What every step from a reachable state preserves, a run preserves. -/
theorem run_preserves {P : σ → Prop}
    (hstep : ∀ s i, m.Reachable s → P s → P (m.next i s)) {s : σ} (h : m.Reachable s)
    (hs : P s) (is : List ι) : P (m.runFrom s is) := by
  induction is generalizing s with
  | nil => exact hs
  | cons i is ih => exact ih (h.next i) (hstep s i h hs)

/-- **Invariants.** A property of the start that every step from a reachable state preserves
holds of every reachable state. -/
theorem Reachable.induction {P : σ → Prop} (hstart : P m.start)
    (hstep : ∀ s i, m.Reachable s → P s → P (m.next i s)) {s : σ} (h : m.Reachable s) : P s := by
  obtain ⟨is, rfl⟩ := h
  exact run_preserves hstep m.reachable_start hstart is

/-- **Monotonicity.** A reflexive and transitive relation around every step from a reachable
state relates the two ends of a run. -/
theorem run_related {R : σ → σ → Prop} (hrefl : ∀ s, R s s)
    (htrans : ∀ {a b c}, R a b → R b c → R a c)
    (hstep : ∀ s i, m.Reachable s → R s (m.next i s)) {s : σ} (h : m.Reachable s)
    (is : List ι) : R s (m.runFrom s is) := by
  induction is generalizing s with
  | nil => exact hrefl s
  | cons i is ih => exact htrans (hstep s i h) (ih (h.next i))

/-! ### Conditions on steps -/

/-- Every step of the run meets a condition on its input and the state before it. -/
def Meets (m : Machine σ ι ο) (P : σ → ι → Prop) (s : σ) : List ι → Prop
  | [] => True
  | i :: is => P s i ∧ m.Meets P (m.next i s) is

theorem meets_append {P : σ → ι → Prop} {s : σ} {is js : List ι} :
    m.Meets P s (is ++ js) ↔ m.Meets P s is ∧ m.Meets P (m.runFrom s is) js := by
  induction is generalizing s with
  | nil => exact (and_iff_right trivial).symm
  | cons i is ih => exact (and_congr_right fun _ => ih).trans and_assoc.symm

/-- What every step under a condition preserves, a run of such steps preserves. -/
theorem Meets.preserves {P : σ → ι → Prop} {Q : σ → Prop}
    (hstep : ∀ s i, P s i → Q s → Q (m.next i s)) {s : σ} {is : List ι} (h : m.Meets P s is)
    (hs : Q s) : Q (m.runFrom s is) := by
  induction is generalizing s with
  | nil => exact hs
  | cons i is ih => exact ih h.2 (hstep s i h.1 hs)

/-- The steps of a run under a condition are among those of the run. -/
theorem Meets.mem {P : σ → ι → Prop} {s : σ} {is : List ι} (h : m.Meets P s is) :
    m.Meets (fun s i => P s i ∧ i ∈ is) s is := by
  have hsub : ∀ js s, js ⊆ is → m.Meets P s js → m.Meets (fun s i => P s i ∧ i ∈ is) s js := by
    intro js
    induction js with
    | nil => exact fun _ _ _ => trivial
    | cons j js ih =>
      intro s hjs h
      obtain ⟨hj, hjs⟩ := List.cons_subset.mp hjs
      exact ⟨⟨h.1, hj⟩, ih _ hjs h.2⟩
  exact hsub is s (List.Subset.refl is) h

/-- **Exact conditions.** Where every step keeps an invariant, and leads from a good state to a good
one exactly under a condition, the runs of steps under the condition are those through good
states. -/
theorem meets_iff_forall_prefix {C : σ → ι → Prop} {I P : σ → Prop}
    (hinvariant : ∀ s i, I s → I (m.next i s))
    (hstep : ∀ s i, I s → P s → (C s i ↔ P (m.next i s))) {s : σ} (hs : I s) (hp : P s)
    (is : List ι) : m.Meets C s is ↔ ∀ js, js <+: is → P (m.runFrom s js) := by
  induction is generalizing s with
  | nil =>
    refine iff_of_true trivial fun js hjs => ?_
    rw [List.prefix_nil.mp hjs]
    exact hp
  | cons i is ih =>
    constructor
    · rintro ⟨hi, his⟩ js hjs
      have hnext := (hstep s i hs hp).mp hi
      rcases List.prefix_cons_iff.mp hjs with rfl | ⟨rest, rfl, hrest⟩
      · exact hp
      · exact (ih (hinvariant s i hs) hnext).mp his rest hrest
    · intro hall
      have hnext : P (m.next i s) := hall [i] (List.cons_prefix_cons.mpr ⟨rfl, List.nil_prefix⟩)
      refine ⟨(hstep s i hs hp).mpr hnext, (ih (hinvariant s i hs) hnext).mpr fun js hjs => ?_⟩
      exact hall (i :: js) (List.cons_prefix_cons.mpr ⟨rfl, hjs⟩)

end Machine
