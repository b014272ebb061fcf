import OpenOJ.Foundation.Machine

/-!
# Races between calls in two steps

A call looks for its answer first, and only when there is none it writes, in a second step
(`SplitCall`). Other calls take their steps in between, steps fail before or after they take effect
(`Fault`), and the environment changes the state on its own (`Move`). `machine` is the race of a
family of calls, and `Phase` where each of them is.

A write is *confirmed* when the lookup would still find no answer (`Confirmed`): such a call does
what it would have done alone, at the moment of its write (`advance_confirmed`). A late step that is
cut off before it takes effect is confirmed too, since it does nothing. What calls on their own
establish and preserve (`Keeps`) therefore holds in every race of confirmed writes:

* `confirmed_preserves`: what calls on their own keep and answer, and the environment keeps, every
  run of confirmed writes keeps, however the steps are mixed;
* `left_runFrom`: a run with two steps of a call, or with as many as it has left, answers it, so
  that `exists_answer` has an answer for every call that was not cut off;
* `confirmed_sequential`: calls that are made in turn, each of which answers before the next one
  starts, are confirmed, and what they do alone is what the run does;
* `run_overlapping`: when two calls find no answer before either of them writes, the second one
  writes on top of the first.

The first and the last are the two sides of one condition: it is what a second look in the writing
step would establish.
-/

universe u v w

/-- A call in two steps; the second one may depend on an input of its own. -/
structure SplitCall (σ κ ρ : Type*) where
  lookup : σ → Option ρ
  write : κ → σ → ρ × σ

/-- The call when nothing comes between its two steps. -/
def SplitCall.alone {σ κ ρ : Type*} (c : SplitCall σ κ ρ) (k : κ) (s : σ) : ρ × σ :=
  match c.lookup s with
  | some r => (r, s)
  | none => c.write k s

theorem SplitCall.alone_of_lookup {σ κ ρ : Type*} {c : SplitCall σ κ ρ} {s : σ}
    (h : c.lookup s = none) (k : κ) : c.alone k s = c.write k s := by
  rw [alone, h]

namespace Race

/-- How far a call has got. -/
inductive Phase (ρ : Type*) where
  | waiting
  | writing
  | answered (r : ρ)
  deriving DecidableEq

/-- What happens to a step: it is taken, or it is refused before or after it takes effect. -/
inductive Fault where
  | none
  | before
  | after

/-- What may come next: a step of a call, or something else that happens to the shared state. -/
inductive Move (ι κ ε : Type*) where
  | call (i : ι) (k : κ) (fault : Fault)
  | other (e : ε)

/-- The shared state, and how far each call has got. -/
structure State (ι σ ρ : Type*) where
  shared : σ
  phase : ι → Phase ρ

variable {ι κ ε σ ρ : Type*}

/-- One step of a call that has got somewhere. -/
def advance (c : SplitCall σ κ ρ) (refusal : ρ) (k : κ) (fault : Fault) (s : σ) :
    Phase ρ → Phase ρ × σ
  | .answered r => (.answered r, s)
  | .waiting =>
    match fault with
    | .none => ((c.lookup s).elim .writing .answered, s)
    | .before | .after => (.answered refusal, s)
  | .writing =>
    match fault with
    | .none => (.answered (c.write k s).1, (c.write k s).2)
    | .before => (.answered refusal, s)
    | .after => (.answered refusal, (c.write k s).2)

section Machine

variable [DecidableEq ι] (calls : ι → SplitCall σ κ ρ) (refusal : ρ) (environment : ε → σ → σ)

/-- The state after a move. -/
def take (st : State ι σ ρ) : Move ι κ ε → State ι σ ρ
  | .call i k fault =>
    let (phase, shared) := advance (calls i) refusal k fault st.shared (st.phase i)
    ⟨shared, Function.update st.phase i phase⟩
  | .other e => ⟨environment e st.shared, st.phase⟩

/-- The race of some calls, all of them about to start. -/
def machine (s : σ) : Machine (State ι σ ρ) (Move ι κ ε) Unit where
  start := ⟨s, fun _ => .waiting⟩
  step move st := ((), take calls refusal environment st move)

@[simp]
theorem start_phase (s : σ) (i : ι) :
    (machine calls refusal environment s).start.phase i = .waiting := rfl

/-- Where a write of a call takes effect, its lookup would still find no answer. -/
def Confirmed (st : State ι σ ρ) (move : Move ι κ ε) : Prop :=
  ∀ i k fault, move = .call i k fault → fault ≠ .before → st.phase i matches .writing →
    (calls i).lookup st.shared = none

end Machine

/-- A step of the call is refused in the run. -/
def Faulted (moves : List (Move ι κ ε)) (i : ι) : Prop :=
  ∃ k fault, .call i k fault ∈ moves ∧ fault ≠ .none

/-- How many steps of the call a run has. -/
def steps [DecidableEq ι] (moves : List (Move ι κ ε)) (i : ι) : Nat :=
  moves.countP fun
    | .call j _ _ => j = i
    | .other _ => false

@[simp] theorem steps_nil [DecidableEq ι] (i : ι) : steps ([] : List (Move ι κ ε)) i = 0 := rfl

@[simp]
theorem steps_call [DecidableEq ι] (moves : List (Move ι κ ε)) (i j : ι) (k : κ) (fault : Fault) :
    steps (.call j k fault :: moves) i = steps moves i + if j = i then 1 else 0 := by
  rw [steps, List.countP_cons]
  simp only [decide_eq_true_eq]
  rfl

@[simp]
theorem steps_other [DecidableEq ι] (moves : List (Move ι κ ε)) (i : ι) (e : ε) :
    steps (.other e :: moves) i = steps moves i := by
  rw [steps, List.countP_cons]
  rfl

/-- How many steps a call has left to take. -/
def Phase.left : Phase ρ → Nat
  | .waiting => 2
  | .writing => 1
  | .answered _ => 0

/-- A call with no steps left has answered. -/
theorem Phase.left_eq_zero {phase : Phase ρ} : phase.left = 0 ↔ ∃ r, phase = .answered r := by
  cases phase with
  | waiting | writing => exact ⟨nofun, nofun⟩
  | answered r => exact ⟨fun _ => ⟨r, rfl⟩, fun _ => rfl⟩

/-- A step brings a call nearer to its answer. -/
theorem left_advance (c : SplitCall σ κ ρ) (refusal : ρ) (k : κ) (fault : Fault) (s : σ)
    (phase : Phase ρ) : (advance c refusal k fault s phase).1.left ≤ phase.left - 1 := by
  cases phase with
  | answered r => exact Nat.le_refl 0
  | writing => cases fault <;> exact Nat.zero_le _
  | waiting =>
    cases fault with
    | before | after => exact Nat.zero_le _
    | none =>
      change ((c.lookup s).elim Phase.writing Phase.answered).left ≤ 1
      cases c.lookup s with
      | none => exact Nat.le_refl 1
      | some r => exact Nat.zero_le _

/-- **A confirmed step** leaves the state as it was, or as the call alone leaves it; and an answer
it gives is a refusal, or the one the call alone gives. -/
theorem advance_confirmed (c : SplitCall σ κ ρ) (refusal : ρ) (k : κ) (fault : Fault) (s : σ)
    {phase : Phase ρ} (h : fault ≠ .before → phase matches .writing → c.lookup s = none) :
    ((advance c refusal k fault s phase).2 = s ∨
        (advance c refusal k fault s phase).2 = (c.alone k s).2) ∧
      ∀ r, (advance c refusal k fault s phase).1 = .answered r →
        (phase = .answered r ∧ (advance c refusal k fault s phase).2 = s) ∨
          (r = refusal ∧ fault ≠ .none) ∨
          (r = (c.alone k s).1 ∧ (advance c refusal k fault s phase).2 = (c.alone k s).2) := by
  cases phase with
  | answered r' => exact ⟨.inl rfl, fun r hr => .inl ⟨hr, rfl⟩⟩
  | waiting =>
    cases fault with
    | before | after =>
      exact ⟨.inl rfl, fun r hr => .inr (.inl ⟨(Phase.answered.inj hr).symm, nofun⟩)⟩
    | none =>
      refine ⟨.inl rfl, fun r hr => .inr (.inr ?_)⟩
      cases hlookup : c.lookup s with
      | none => simp [advance, hlookup] at hr
      | some r' =>
        simp only [advance, hlookup, Option.elim_some, Phase.answered.injEq] at hr
        subst hr
        simp only [advance, SplitCall.alone, hlookup, and_self]
  | writing =>
    cases fault with
    | before => exact ⟨.inl rfl, fun r hr => .inr (.inl ⟨(Phase.answered.inj hr).symm, nofun⟩)⟩
    | none =>
      have halone := SplitCall.alone_of_lookup (h nofun rfl) k
      refine ⟨.inr (by rw [advance, halone]), fun r hr => .inr (.inr ?_)⟩
      rw [halone]
      exact ⟨(Phase.answered.inj hr).symm, rfl⟩
    | after =>
      have halone := SplitCall.alone_of_lookup (h nofun rfl) k
      refine ⟨.inr (by rw [advance, halone]), fun r hr => .inr (.inl ?_)⟩
      exact ⟨(Phase.answered.inj hr).symm, nofun⟩

/-- What holds of the shared state, and of each answer in it. -/
structure Keeps (I : σ → Prop) (G : ι → ρ → σ → Prop) (s s' : σ) : Prop where
  shared : I s'
  answers : ∀ i r, G i r s → G i r s'

theorem Keeps.refl {I : σ → Prop} {G : ι → ρ → σ → Prop} {s : σ} (h : I s) :
    Keeps I G s s := ⟨h, fun _ _ hr => hr⟩

section Rule

variable [DecidableEq ι] {calls : ι → SplitCall σ κ ρ} {refusal : ρ} {environment : ε → σ → σ}

/-- **The rule of confirmed races.** What calls on their own keep and answer, and the environment
keeps, every run of confirmed writes keeps, from wherever it holds. -/
theorem confirmed_preserves_from {I : σ → Prop} {G : ι → ρ → σ → Prop}
    (hcall : ∀ i k s, I s → Keeps I G s ((calls i).alone k s).2 ∧
      G i ((calls i).alone k s).1 ((calls i).alone k s).2)
    (hother : ∀ e s, I s → Keeps I G s (environment e s)) {moves : List (Move ι κ ε)}
    (hrefusal : ∀ i s, Faulted moves i → I s → G i refusal s) {s : σ} {st : State ι σ ρ}
    (hst : I st.shared) (hanswers : ∀ i r, st.phase i = .answered r → G i r st.shared)
    (h : (machine calls refusal environment s).Meets (Confirmed calls) st moves) :
    I ((machine calls refusal environment s).runFrom st moves).shared ∧
      ∀ i r, ((machine calls refusal environment s).runFrom st moves).phase i = .answered r →
        G i r ((machine calls refusal environment s).runFrom st moves).shared := by
  -- the answers given so far stay right while others move
  refine h.mem.preserves (Q := fun st => I st.shared ∧
    ∀ i r, st.phase i = .answered r → G i r st.shared) ?_ ⟨hst, hanswers⟩
  rintro st (⟨i, k, fault⟩ | e) ⟨hconfirmed, hmem⟩ ⟨hI, hgood⟩
  · obtain ⟨hshared, hanswer⟩ :=
      advance_confirmed (calls i) refusal k fault st.shared (hconfirmed i k fault rfl)
    obtain ⟨halone, hself⟩ := hcall i k st.shared hI
    have hkeeps : Keeps I G st.shared
        (advance (calls i) refusal k fault st.shared (st.phase i)).2 := by
      rcases hshared with heq | heq <;> rw [heq]
      · exact .refl hI
      · exact halone
    refine ⟨hkeeps.shared, fun j r hr => ?_⟩
    change Function.update st.phase i _ j = _ at hr
    by_cases hj : j = i
    · subst hj
      rw [Function.update_self] at hr
      rcases hanswer r hr with ⟨hphase, -⟩ | ⟨rfl, hfault⟩ | ⟨rfl, heq⟩
      · exact hkeeps.answers j r (hgood j r hphase)
      · exact hrefusal j _ ⟨k, fault, hmem, hfault⟩ hkeeps.shared
      · change G j _ (advance (calls j) refusal k fault st.shared (st.phase j)).2
        rw [heq]
        exact hself
    · rw [Function.update_of_ne hj] at hr
      exact hkeeps.answers j r (hgood j r hr)
  · have hkeeps := hother e st.shared hI
    exact ⟨hkeeps.shared, fun j r hr => hkeeps.answers j r (hgood j r hr)⟩

/-- What calls on their own keep and answer, and the environment keeps, holds after every race of
confirmed writes. -/
theorem confirmed_preserves {I : σ → Prop} {G : ι → ρ → σ → Prop}
    (hcall : ∀ i k s, I s → Keeps I G s ((calls i).alone k s).2 ∧
      G i ((calls i).alone k s).1 ((calls i).alone k s).2)
    (hother : ∀ e s, I s → Keeps I G s (environment e s)) {moves : List (Move ι κ ε)}
    (hrefusal : ∀ i s, Faulted moves i → I s → G i refusal s) {s : σ} (hs : I s)
    (h : (machine calls refusal environment s).Meets (Confirmed calls)
      (machine calls refusal environment s).start moves) :
    I ((machine calls refusal environment s).run moves).shared ∧
      ∀ i r, ((machine calls refusal environment s).run moves).phase i = .answered r →
        G i r ((machine calls refusal environment s).run moves).shared := by
  refine confirmed_preserves_from hcall hother hrefusal hs (fun i r hr => ?_) h
  cases hr

/-- **Progress.** A run with two steps of a call, or with as many as it has left, answers it. -/
theorem left_runFrom (s : σ) (st : State ι σ ρ) (moves : List (Move ι κ ε)) (i : ι) :
    (((machine calls refusal environment s).runFrom st moves).phase i).left ≤
      (st.phase i).left - steps moves i := by
  induction moves generalizing st with
  | nil => exact Nat.le_refl _
  | cons move moves ih =>
    rw [Machine.runFrom_cons]
    cases move with
    | other e =>
      rw [steps_other]
      exact ih _
    | call j k fault =>
      rw [steps_call]
      refine Nat.le_trans (ih _) ?_
      change (Function.update st.phase j
        (advance (calls j) refusal k fault st.shared (st.phase j)).1 i).left - _ ≤ _
      by_cases hj : j = i
      · subst hj
        rw [Function.update_self, if_pos rfl]
        have hadvance := left_advance (calls j) refusal k fault st.shared (st.phase j)
        omega
      · rw [Function.update_of_ne (Ne.symm hj), if_neg hj]
        exact Nat.le_refl _

/-- A call that takes two steps has its answer. -/
theorem exists_answer (s : σ) {moves : List (Move ι κ ε)} {i : ι} (h : 2 ≤ steps moves i) :
    ∃ r, ((machine calls refusal environment s).run moves).phase i = .answered r := by
  have hleft : (((machine calls refusal environment s).run moves).phase i).left ≤
      2 - steps moves i := left_runFrom s _ moves i
  exact Phase.left_eq_zero.mp (by omega)

/-! ### Single moves -/

theorem next_other (s : σ) (st : State ι σ ρ) (e : ε) :
    (machine calls refusal environment s).next (.other e : Move ι κ ε) st =
      ⟨environment e st.shared, st.phase⟩ := rfl

/-- A lookup that finds no answer. -/
theorem next_looked (s : σ) {st : State ι σ ρ} {i : ι} (h : st.phase i = .waiting)
    (hlookup : (calls i).lookup st.shared = none) (k : κ) :
    (machine calls refusal environment s).next (.call i k .none) st =
      ⟨st.shared, Function.update st.phase i .writing⟩ := by
  simp only [Machine.next, machine, take, h, advance, hlookup, Option.elim_none]

/-- A lookup that finds its answer. -/
theorem next_replayed (s : σ) {st : State ι σ ρ} {i : ι} {r : ρ} (h : st.phase i = .waiting)
    (hlookup : (calls i).lookup st.shared = some r) (k : κ) :
    (machine calls refusal environment s).next (.call i k .none) st =
      ⟨st.shared, Function.update st.phase i (.answered r)⟩ := by
  simp only [Machine.next, machine, take, h, advance, hlookup, Option.elim_some]

/-- A write. -/
theorem next_written (s : σ) {st : State ι σ ρ} {i : ι} (h : st.phase i = .writing) (k : κ) :
    (machine calls refusal environment s).next (.call i k .none) st =
      ⟨((calls i).write k st.shared).2,
        Function.update st.phase i (.answered ((calls i).write k st.shared).1)⟩ := by
  simp only [Machine.next, machine, take, h, advance]

/-- **Overlapping calls.** When two calls find no answer before either of them writes, the second
one writes on top of the first. -/
theorem run_overlapping {i j : ι} (hij : i ≠ j) {s : σ} (hi : (calls i).lookup s = none)
    (hj : (calls j).lookup s = none) (k l : κ) :
    (machine calls refusal environment s).run
        [.call i k .none, .call j l .none, .call i k .none, .call j l .none] =
      ⟨((calls j).write l ((calls i).write k s).2).2,
        fun n => if n = j then .answered ((calls j).write l ((calls i).write k s).2).1
          else if n = i then .answered ((calls i).write k s).1 else .waiting⟩ := by
  have hji : j ≠ i := hij.symm
  simp only [Machine.run, Machine.runFrom_cons, Machine.runFrom_nil, Machine.next, machine, take,
    advance, hi, hj, Option.elim_none, Function.update_of_ne hji, Function.update_of_ne hij,
    Function.update_self]
  congr 1
  funext n
  by_cases hnj : n = j
  · rw [if_pos hnj, hnj, Function.update_self]
  · rw [if_neg hnj, Function.update_of_ne hnj]
    by_cases hni : n = i
    · rw [if_pos hni, hni, Function.update_self]
    · rw [if_neg hni, Function.update_of_ne hni, Function.update_of_ne hnj,
        Function.update_of_ne hni]

omit [DecidableEq ι] in
/-- A step of a call that is not to write is confirmed. -/
theorem confirmed_of_waiting {st : State ι σ ρ} {i : ι} (h : st.phase i = .waiting) (k : κ) :
    Confirmed calls st (.call i k .none : Move ι κ ε) := by
  rintro _ _ _ ⟨⟩ - hwriting
  rw [h] at hwriting
  cases hwriting

/-- Lookups of calls that wait are confirmed. -/
theorem confirmed_lookups (s : σ) {st : State ι σ ρ} (k : κ) {js : List ι} (hjs : js.Nodup)
    (h : ∀ j ∈ js, st.phase j = .waiting) :
    (machine calls refusal environment s).Meets (Confirmed calls) st
      (js.map fun j => .call j k .none) := by
  induction js generalizing st with
  | nil => trivial
  | cons j js ih =>
    obtain ⟨hj, hjs⟩ := List.nodup_cons.mp hjs
    refine ⟨confirmed_of_waiting (h j List.mem_cons_self) k, ih hjs fun i hi => ?_⟩
    have hij : i ≠ j := fun heq => hj (heq ▸ hi)
    exact (Function.update_of_ne hij ..).trans (h i (List.mem_cons_of_mem j hi))

/-- A call that takes both of its steps before others start is confirmed. -/
theorem confirmed_sequential (s : σ) {st : State ι σ ρ} {i : ι} {js : List ι}
    (hjs : (i :: js).Nodup) (hst : ∀ j ∈ i :: js, st.phase j = .waiting)
    (hi : (calls i).lookup st.shared = none) (k l : κ) :
    (machine calls refusal environment s).Meets (Confirmed calls) st
      (.call i k .none :: .call i k .none :: js.map fun j => .call j l .none) := by
  obtain ⟨hij, hjs⟩ := List.nodup_cons.mp hjs
  have hwaiting : st.phase i = .waiting := hst i List.mem_cons_self
  have hlooked : (machine calls refusal environment s).next (.call i k .none) st =
      ⟨st.shared, Function.update st.phase i .writing⟩ := next_looked s hwaiting hi k
  refine ⟨confirmed_of_waiting hwaiting k, ?_, confirmed_lookups s l hjs fun j hj => ?_⟩
  · rintro _ _ _ ⟨⟩ - -
    rw [hlooked]
    exact hi
  · have hji : j ≠ i := fun heq => hij (heq ▸ hj)
    rw [hlooked]
    exact (Function.update_of_ne hji ..).trans ((Function.update_of_ne hji ..).trans
      (hst j (List.mem_cons_of_mem i hj)))

end Rule
end Race
