import Mathlib.Data.List.Forall2
import Mathlib.Logic.Basic
import Mathlib.Tactic.Common

/-!
# Fallible computations

A computation that may be refused is an `Except ε α`. Four combinators are the ways in which code
refuses and reports:

* `refuseIf c e`: a guard, which refuses with `e` where `c` holds;
* `orRefuse e x`: the value of an option, or the refusal `e`;
* `reportAs e x`: the value of a computation, whose errors are all reported as `e`;
* `translate f x`: the value of a computation, whose errors are translated by `f`.

The facts every proof about a sequence of such computations needs are stated once: what it takes for
a sequence to answer `.ok` (`Outcome.bind_eq_ok`), and what each combinator contributes to it
(`refuseIf_eq_ok`, `orRefuse_eq_ok`, `reportAs_eq_ok`, `translate_eq_ok`). With these as rewriting
rules a whole sequence unfolds into its guards, its intermediate values and its result, in the order
in which it is written. `bind_eq_error` and its companions do the same for refusals.

For loops over lists, `mapM_eq_ok` relates the items and the results pairwise, `forM_eq_ok` says
that every check passed, and `exists_forall₂` chooses the results where each item has one.
-/

namespace Outcome

universe u v

variable {ε ε' : Type u} {α β : Type v}

/-- A guard: refuse with `e` when `c` holds, go on otherwise. -/
def refuseIf (c : Prop) [Decidable c] (e : ε) : Except ε Unit :=
  if c then .error e else .ok ()

/-- A missing value is refused with `e`. -/
def orRefuse (e : ε) : Option α → Except ε α
  | some a => .ok a
  | none => .error e

/-- Every error of `x` is reported as `e`. -/
def reportAs (e : ε) (x : Except ε' α) : Except ε α :=
  match x with
  | .ok a => .ok a
  | .error _ => .error e

/-- Every error of `x` is translated by `f`. -/
def translate (f : ε' → ε) (x : Except ε' α) : Except ε α :=
  match x with
  | .ok a => .ok a
  | .error e => .error (f e)

@[simp]
theorem refuseIf_eq_ok {c : Prop} [Decidable c] {e : ε} {u : Unit} :
    refuseIf c e = .ok u ↔ ¬c := by
  unfold refuseIf
  split <;> simp [*]

theorem refuseIf_pos {c : Prop} [Decidable c] {e : ε} (h : c) : refuseIf c e = .error e :=
  if_pos h

theorem refuseIf_neg {c : Prop} [Decidable c] {e : ε} (h : ¬c) : refuseIf c e = .ok () :=
  if_neg h

@[simp]
theorem orRefuse_eq_ok {e : ε} {x : Option α} {a : α} : orRefuse e x = .ok a ↔ x = some a := by
  cases x <;> simp [orRefuse]

@[simp] theorem orRefuse_some (e : ε) (a : α) : orRefuse e (some a) = .ok a := rfl

@[simp] theorem orRefuse_none (e : ε) : orRefuse e (none : Option α) = .error e := rfl

@[simp]
theorem reportAs_eq_ok {e : ε} {x : Except ε' α} {a : α} : reportAs e x = .ok a ↔ x = .ok a := by
  cases x <;> simp [reportAs]

@[simp] theorem reportAs_ok (e : ε) (a : α) :
    reportAs e (.ok a : Except ε' α) = .ok a := rfl

@[simp] theorem reportAs_error (e : ε) (e' : ε') :
    reportAs e (.error e' : Except ε' α) = .error e := rfl

@[simp]
theorem translate_eq_ok {f : ε' → ε} {x : Except ε' α} {a : α} :
    translate f x = .ok a ↔ x = .ok a := by
  cases x <;> simp [translate]

@[simp] theorem translate_ok (f : ε' → ε) (a : α) :
    translate f (.ok a : Except ε' α) = .ok a := rfl

@[simp] theorem translate_error (f : ε' → ε) (e : ε') :
    translate f (.error e : Except ε' α) = .error (f e) := rfl

@[simp] theorem ok_bind (a : α) (f : α → Except ε β) : (Except.ok a >>= f) = f a := rfl

@[simp] theorem error_bind (e : ε) (f : α → Except ε β) :
    (Except.error e >>= f) = .error e := rfl

/-- **Inversion.** A sequence answers `.ok` exactly when both of its parts do. -/
theorem bind_eq_ok {x : Except ε α} {f : α → Except ε β} {b : β} :
    (x >>= f) = .ok b ↔ ∃ a, x = .ok a ∧ f a = .ok b := by
  cases x <;> simp

/-- A sequence is refused by its first part, or by its second one after the first. -/
theorem bind_eq_error {x : Except ε α} {f : α → Except ε β} {e : ε} :
    (x >>= f) = .error e ↔ x = .error e ∨ ∃ a, x = .ok a ∧ f a = .error e := by
  cases x <;> simp

theorem refuseIf_eq_error {c : Prop} [Decidable c] {e e' : ε} :
    refuseIf c e = .error e' ↔ c ∧ e = e' := by
  unfold refuseIf
  split <;> simp [*]

theorem orRefuse_eq_error {e e' : ε} {x : Option α} :
    orRefuse e x = .error e' ↔ x = none ∧ e = e' := by
  cases x <;> simp [orRefuse]

theorem reportAs_eq_error {e e' : ε} {x : Except ε' α} :
    reportAs e x = .error e' ↔ (∃ e'', x = .error e'') ∧ e = e' := by
  cases x <;> simp [reportAs]

theorem translate_eq_error {f : ε' → ε} {x : Except ε' α} {e : ε} :
    translate f x = .error e ↔ ∃ e', x = .error e' ∧ f e' = e := by
  cases x <;> simp [translate]

/-- A computation is refused or answers a value. -/
theorem ok_or_error (x : Except ε α) : (∃ a, x = .ok a) ∨ ∃ e, x = .error e := by
  cases x with
  | ok a => exact .inl ⟨a, rfl⟩
  | error e => exact .inr ⟨e, rfl⟩

/-- A relation that relates each item of a list relates the list. -/
theorem exists_forall₂ {r : β → α → Prop} {bs : List β}
    (h : ∀ b ∈ bs, ∃ a, r b a) : ∃ as, List.Forall₂ r bs as := by
  induction bs with
  | nil => exact ⟨[], .nil⟩
  | cons b bs ih =>
    rw [List.forall_mem_cons] at h
    obtain ⟨a, ha⟩ := h.1
    obtain ⟨as, has⟩ := ih h.2
    exact ⟨a :: as, .cons ha has⟩

/-- Each item of a list is related to one of the other list. -/
theorem exists_of_forall₂ {r : β → α → Prop} {bs : List β} {as : List α}
    (h : List.Forall₂ r bs as) {b : β} (hb : b ∈ bs) : ∃ a ∈ as, r b a := by
  obtain ⟨i, hi, rfl⟩ := List.mem_iff_getElem.mp hb
  exact ⟨_, List.getElem_mem (h.length_eq ▸ hi), h.get hi (h.length_eq ▸ hi)⟩

/-- A list is read item by item. -/
theorem mapM_eq_ok {f : β → Except ε α} {bs : List β} {as : List α} :
    bs.mapM f = .ok as ↔ List.Forall₂ (fun b a => f b = .ok a) bs as := by
  induction bs generalizing as with
  | nil => simp [pure, Except.pure, eq_comm]
  | cons b bs ih =>
    simp only [List.mapM_cons, bind_eq_ok, ih, pure, Except.pure, Except.ok.injEq,
      List.forall₂_cons_left_iff]
    constructor
    · rintro ⟨a, ha, as, has, rfl⟩
      exact ⟨a, as, ha, has, rfl⟩
    · rintro ⟨a, as, ha, has, rfl⟩
      exact ⟨a, ha, as, has, rfl⟩

/-- A check made of item after item. -/
theorem forM_eq_ok {f : β → Except ε Unit} {bs : List β} :
    bs.forM f = .ok () ↔ ∀ b ∈ bs, f b = .ok () := by
  induction bs with
  | nil => simp [pure, Except.pure]
  | cons b bs ih =>
    rw [List.forall_mem_cons, ← ih]
    exact bind_eq_ok.trans Unique.exists_iff

/-- Reading back a list item by item. -/
theorem mapM_map_ok {f : β → Except ε α} {g : α → β} (h : ∀ a, f (g a) = .ok a) (l : List α) :
    (l.map g).mapM f = .ok l := by
  rw [mapM_eq_ok, List.forall₂_map_left_iff]
  exact List.forall₂_same.mpr fun a _ => h a

end Outcome
