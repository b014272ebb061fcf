import Mathlib.Data.List.Infix
import Mathlib.Tactic.Common

/-!
# The first place of a pattern

`position pattern as` is where a pattern occurs first in a list, if it does. It is found from the
left (`position_cons`), and an occurrence lies within the list (`position_add_length_le`).

What is before an occurrence and what follows it can be changed as long as no earlier one arises:

* `position_append_of_some`: an occurrence stays the first one when more items follow;
* `position_eq_none_of_append`: where there is none, there is none in a part either;
* `position_skip`: items in front of which no occurrence starts move it on by their number.

A reader that takes items one by one and looks again after each of them stops where the pattern ends
for the first time, and these are the three facts that say so.
-/

universe u

namespace Search

variable {α : Type u} [DecidableEq α]

/-- The first place at which the pattern begins. -/
def position (pattern : List α) : List α → Option Nat
  | [] => if pattern = [] then some 0 else none
  | a :: as => if pattern <+: a :: as then some 0 else (position pattern as).map (· + 1)

variable {pattern : List α}

theorem position_of_prefix {as : List α} (h : pattern <+: as) : position pattern as = some 0 := by
  cases as with
  | nil => exact if_pos (List.prefix_nil.mp h)
  | cons a as => exact if_pos h

theorem position_cons {a : α} {as : List α} (h : ¬pattern <+: a :: as) :
    position pattern (a :: as) = (position pattern as).map (· + 1) :=
  if_neg h

/-- An occurrence ends within the list. -/
theorem position_add_length_le {as : List α} {i : Nat} (h : position pattern as = some i) :
    i + pattern.length ≤ as.length := by
  induction as generalizing i with
  | nil =>
    rw [position] at h
    split_ifs at h with hpattern
    obtain rfl := Option.some_inj.mp h
    rw [hpattern]
    exact le_rfl
  | cons a as ih =>
    rw [position] at h
    split_ifs at h with hhere
    · obtain rfl := Option.some_inj.mp h
      rw [Nat.zero_add]
      exact hhere.length_le
    · obtain ⟨j, hj, rfl⟩ := Option.map_eq_some_iff.mp h
      have hle := ih hj
      rw [List.length_cons]
      omega

/-- More at the end does not change the first place. -/
theorem position_append_of_some {as : List α} {i : Nat} (h : position pattern as = some i)
    (bs : List α) : position pattern (as ++ bs) = some i := by
  induction as generalizing i with
  | nil =>
    rw [position] at h
    split_ifs at h with hpattern
    obtain rfl := Option.some_inj.mp h
    cases bs with
    | nil => exact if_pos hpattern
    | cons b bs => exact if_pos (hpattern ▸ List.nil_prefix)
  | cons a as ih =>
    rw [position] at h
    rw [List.cons_append, position]
    split_ifs at h with hhere
    · have hlonger : pattern <+: a :: (as ++ bs) := hhere.trans (List.prefix_append (a :: as) bs)
      rw [if_pos hlonger]
      exact h
    · obtain ⟨j, hj, rfl⟩ := Option.map_eq_some_iff.mp h
      have hlonger : ¬pattern <+: a :: (as ++ bs) := fun hlonger => by
        -- the occurrence found later shows that the pattern fits into the shorter list
        have hfits := position_add_length_le hj
        refine hhere (List.prefix_of_prefix_length_le hlonger (List.prefix_append (a :: as) bs) ?_)
        rw [List.length_cons]
        omega
      rw [if_neg hlonger, ih hj]
      rfl

/-- A pattern is found in no part that ends before the first occurrence does. -/
theorem position_eq_none_of_append {as bs : List α} {i : Nat}
    (h : position pattern (as ++ bs) = some i) (hshort : as.length < i + pattern.length) :
    position pattern as = none := by
  by_contra hfound
  obtain ⟨j, hj⟩ := Option.ne_none_iff_exists'.mp hfound
  have hsame := position_append_of_some hj bs
  rw [h] at hsame
  obtain rfl := Option.some_inj.mp hsame
  exact absurd (position_add_length_le hj) (Nat.not_le.mpr hshort)

/-- Items other than the first one of the pattern are passed. -/
theorem position_skip {first : α} {rest as : List α} (h : first ∉ as) (bs : List α) :
    position (first :: rest) (as ++ bs) =
      (position (first :: rest) bs).map (as.length + ·) := by
  induction as with
  | nil => simp
  | cons a as ih =>
    rw [List.mem_cons, not_or] at h
    have hhere : ¬first :: rest <+: a :: (as ++ bs) := fun hhere =>
      h.1 (List.cons_prefix_cons.mp hhere).1
    rw [List.cons_append, position, if_neg hhere, ih h.2, Option.map_map]
    refine congrArg (fun f => Option.map f _) (funext fun n => ?_)
    rw [List.length_cons]
    exact Nat.add_right_comm _ _ _

end Search
